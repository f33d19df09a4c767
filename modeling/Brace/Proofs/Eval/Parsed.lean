/-
# The evaluation of parsed trees

Some failures of an evaluation are only known from trees that no source has: a parsed tree assigns
to variables only, has no components, and each of its templates has a piece of text around every
expression.  Main statement: `Node.evaluation_of_parse`.
-/
import Brace.Proofs.Eval.Effects
import Brace.Proofs.Eval.Visits
import Brace.Proofs.Node.Stored

namespace Brace

/-! ## What parsed trees lack -/

/-- Every place of a regular tree assigns to a variable, if it assigns. -/
theorem Regular.target_isIdentifier {limits : Limits} {place : Place} {target a : Node}
    (h : Regular limits place (.assign target a)) : target.isIdentifier = true := by
  generalize hn : Node.assign target a = n at h
  induction h with
  | assign htarget _ _ _ _ =>
    cases hn
    exact htarget
  | expression _ _ ih => exact ih hn
  | _ => cases hn

namespace Node

/-- A tree whose evaluation cannot go wrong by its form. -/
structure WellMade (n : Node) : Prop where
  /-- The targets of assignments are variables. -/
  targets : ∀ target a, assign target a ∈ n.nodes → target.isIdentifier = true
  /-- There are no components. -/
  components : ∀ entries, components entries ∉ n.nodes
  /-- Every expression of a template has a piece of text in front of it. -/
  templates : ∀ m ∈ n.nodes, ∀ quasis as, m = template quasis as → as.length ≤ quasis.length

/-- The parser answers trees that are well made. -/
theorem wellMade_of_parse {source : String} {n : Node} (h : parse source = .ok n) :
    n.WellMade where
  targets target a hm := by
    obtain ⟨_, hregular⟩ := exists_regular_of_mem_nodes h hm
    exact hregular.target_isIdentifier
  components entries hm := by
    obtain ⟨_, hregular⟩ := exists_regular_of_mem_nodes h hm
    exact hregular.ne_components entries rfl
  templates m hm quasis as hn := by
    obtain ⟨_, hregular⟩ := exists_regular_of_mem_nodes h hm
    exact length_le_of_regular (hn ▸ hregular)

/-! ## Errors and effects that do not occur -/

/-- An error that is neither about the target of an assignment nor about components. -/
def IsOrdinary (e : EvalError) : Prop :=
  (∀ target, e ≠ .badTarget target) ∧ e ≠ .componentsUnsupported

/-- A failure of the host is an ordinary one. -/
theorem isOrdinary_host (message : String) : IsOrdinary (.host message) := by
  simp [IsOrdinary]

open EvalM

section

variable [Regex.Engine] {σ : Type} {env : Environment σ} {n : Node}

/-- The steps of evaluating a well-made tree fail with ordinary errors only, if the functions of the
host do. -/
theorem relatesSteps_failsOnly (hn : n.WellMade)
    (hcall : ∀ id args, FailsOnly IsOrdinary (env.call id args)) :
    RelatesSteps (.idle env) (.idle env) (fun x _ _ => FailsOnly IsOrdinary x) n where
  pure := .pure
  bind := .bind
  around _ _ _ h := h
  read _ _ _ := by
    intro s e h
    cases h
  write _ _ _ _ _ := by
    intro s e h
    cases h
  call _ _ _ _ := hcall
  -- The tree has no components, and no target of another kind.
  components _ entries h := absurd h (hn.components entries)
  notCallable _ _ _ _ := .throw (by simp [IsOrdinary])
  -- Targets are variables, so the step for other targets is never taken.
  badTarget target a h hnot _ := by
    rw [hn.targets target a h] at hnot
    cases hnot
  badPattern _ _ _ _ _ := .throw (by simp [IsOrdinary])

/-- No components have been evaluated so far. -/
def WithoutComponents (s : Logged σ) : Prop := ∀ x ∈ s.log, x.effect.kind ≠ .components

/-- An event of another kind does not bring in components. -/
theorem WithoutComponents.push {s : Logged σ} (h : WithoutComponents s) (t : σ) {x : Event}
    (hx : x.effect.kind ≠ .components) : WithoutComponents (s.push t x) := by
  intro y hy
  rcases List.mem_append.mp hy with hy | hy
  · exact h y hy
  · rwa [List.mem_singleton.mp hy]

/-- The steps of evaluating a well-made tree evaluate no components. -/
theorem relatesSteps_withoutComponents (env : Environment σ) (hn : n.WellMade) :
    RelatesSteps (.idle (env.logged [])) (.idle (env.logged []))
      (fun x _ _ => Leads (fun s t => WithoutComponents s → WithoutComponents t) x) n := by
  refine relatesSteps_leads (fun _ h => h) (fun h h' hs => h' (h hs)) ?around ?read ?write ?call
    ?components
  case around => exact fun _ _ _ h => h
  case read => exact fun _ _ _ h => h
  case write => exact fun _ _ _ _ _ _ h => h.push _ (by simp [Effect.kind])
  case call => exact fun _ _ _ _ h => h.push _ (by simp [Effect.kind])
  case components => exact fun _ entries h => absurd h (hn.components entries)

/-- A tree that is well made has no effect on components. -/
theorem kind_ne_components_of_mem_effects (hn : n.WellMade) {s : σ} {x : Event}
    (hx : x ∈ n.effects env s) : x.effect.kind ≠ .components := by
  have hlog : x.unplaced ∈ (n.run (env.logged []) ⟨s, []⟩).2.log := by
    rw [run_logged_log]
    exact List.mem_map_of_mem hx
  have hrun : WithoutComponents (n.run (env.logged []) ⟨s, []⟩).2 :=
    relates_eval (relatesSteps_withoutComponents env hn) ⟨s, []⟩ (List.forall_mem_nil _)
  exact hrun x.unplaced hlog

/-! ## Main statement -/

/-- Where a tree is the answer of the parser and the functions of the host fail with errors of their
own only, an evaluation has no error about the target of an assignment and none about components,
and no components are evaluated.  On the way of the evaluation, each template that does not fail
visits each of its expressions once. -/
theorem evaluation_of_parse {source : String} {n : Node} (hparse : parse source = .ok n)
    (env : Environment σ) (hhost : ∀ id args s e, ((env.call id args).run.run s).1 = .error e →
      ∃ message, e = .host message) (s : σ) :
    (∀ e, (n.run env s).1 = .error e →
      (∀ target, e ≠ .badTarget target) ∧ e ≠ .componentsUnsupported) ∧
    (∀ x ∈ n.effects env s, x.effect.kind ≠ .components) ∧
    (n.runVisited env s).map id Visited.state = n.run env s ∧
    ∀ v ∈ (n.visit env s).all, ∀ quasis as x, v.node = template quasis as → v.answer = .ok x →
      v.parts.map Visit.node = as := by
  have hn := wellMade_of_parse hparse
  have hcall : ∀ id args, FailsOnly IsOrdinary (env.call id args) := by
    intro id args t e he
    obtain ⟨message, rfl⟩ := hhost id args t e he
    exact isOrdinary_host message
  exact ⟨relates_eval (relatesSteps_failsOnly hn hcall) s,
    fun x hx => kind_ne_components_of_mem_effects hn hx, runVisited_state env n s,
    fills_of_mem_visit env hn.templates s⟩

end

/-- A call in a template, which succeeds or fails. -/
theorem evaluation_of_parse_template :
    let a := call (identifier "f") [null]
    let n := template ["x", ""] [a]
    let env (answer : EvalM Unit Value) : Environment Unit :=
      { load := fun _ s => (.function 0, s), set := fun _ a s => (a, s), call := fun _ _ => answer }
    let failing : Environment Unit := env (throw (.host "no"))
    let succeeding : Environment Unit := env (pure (.string "y"))
    parse "`x\x7bf(null)\x7d`" = .ok n ∧
      (n.run failing ()).1 = .error (.host "no") ∧
      (∀ target, EvalError.host "no" ≠ .badTarget target) ∧
      (n.run succeeding ()).1 = .ok (.string "xy") ∧
      (n.visit succeeding ()).answer = .ok (.string "xy") ∧
      (n.visit succeeding ()).parts.map Visit.node = [a] := by
  intro a n env failing succeeding
  have hf : IsName "f" := ⟨⟨'f', [], rfl, by decide, List.forall_mem_nil _⟩, by decide⟩
  have hquasis : ∀ q ∈ ["x", ""], IsQuasi q.toList := by
    intro q hq
    rw [isQuasi_iff]
    revert q
    decide
  have ha : Regular .parsed .interpolation a :=
    .expression nofun (.call (.identifier hf) (List.forall_mem_singleton.mpr .null))
  -- The text is that of a regular tree, so it is parsed to this tree.
  have hregular : Regular .parsed .expression n :=
    .template rfl hquasis (List.forall_mem_singleton.mpr ha)
  have hparse : parse n.source = .ok n := parse_source (.expression nofun hregular)
  rw [show n.source = "`x\x7bf(null)\x7d`" by decide] at hparse
  have hfailing : (n.run failing ()).1 = .error (.host "no") := rfl
  have hvisit : (n.visit succeeding ()).answer = .ok (.string "xy") := rfl
  obtain ⟨herrors, -, -, -⟩ := evaluation_of_parse hparse failing
    (fun id args s e h => ⟨"no", (Except.error.inj h).symm⟩) ()
  obtain ⟨-, -, -, hfills⟩ := evaluation_of_parse hparse succeeding
    (fun id args s e h => by cases h) ()
  exact ⟨hparse, hfailing, (herrors _ hfailing).1, rfl, hvisit,
    hfills _ (Visit.mem_all_iff.mpr (Or.inl rfl)) _ _ _ rfl hvisit⟩

end Node

end Brace
