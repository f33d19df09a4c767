/-
# The parts of an evaluation

The evaluation of a node evaluates other nodes on its way.  An observer who writes this down gets a
tree of visits: a node, the answer of its evaluation, and the visits on the way in order
(`Node.visit`).  Writing down changes nothing (`Node.runVisited_state`).  Where a template has
enough pieces of text, an evaluation that does not fail visits each of its expressions once, from
left to right (`Node.fills_of_mem_visit`).
-/
import Brace.Proofs.Eval.Observed

namespace Brace

variable [Regex.Engine]

/-! ## Visits -/

/-- An evaluation of a node that has come to its end. -/
structure Visit where
  /-- The node. -/
  node : Node
  /-- The answer. -/
  answer : Except EvalError Value
  /-- The evaluations on the way, those of other nodes by this one, in order. -/
  parts : List Visit

namespace Visit

mutual

/-- A visit and all visits on its way. -/
def all : Visit → List Visit
  | ⟨n, answer, parts⟩ => ⟨n, answer, parts⟩ :: allOf parts

/-- The visits of a list, and all those on their ways. -/
def allOf : List Visit → List Visit
  | [] => []
  | v :: vs => all v ++ allOf vs

end

/-- A visit to a template that does not fail visits its expressions, each of them once and from left
to right. -/
def Fills (v : Visit) : Prop :=
  ∀ quasis as x, v.node = .template quasis as → v.answer = .ok x → v.parts.map node = as

theorem mem_all_iff {v w : Visit} : w ∈ v.all ↔ w = v ∨ w ∈ allOf v.parts := by
  obtain ⟨n, answer, parts⟩ := v
  rw [all, List.mem_cons]

theorem allOf_singleton (v : Visit) : allOf [v] = v.all := by
  rw [allOf, allOf, List.append_nil]

theorem allOf_append (us vs : List Visit) : allOf (us ++ vs) = allOf us ++ allOf vs := by
  induction us with
  | nil => rfl
  | cons u us ih => rw [List.cons_append, allOf, allOf, ih, List.append_assoc]

end Visit

/-! ## The observer who writes visits down -/

/-- A state with the visits so far. -/
structure Visited (σ : Type) where
  /-- The state. -/
  state : σ
  /-- The visits, in order. -/
  visits : List Visit

namespace Visited

variable {σ : Type}

/-- Puts a new state beside the visits. -/
def setState (s : Visited σ) (t : σ) : Visited σ := { s with state := t }

/-- Computes beside the visits. -/
def lift {α : Type} (x : EvalM σ α) : EvalM (Visited σ) α :=
  ExceptT.mk fun s => (x.run.run s.state).map id s.setState

/-- Writes the evaluation of a node down, with all visits on the way. -/
def record (n : Node) (x : EvalM (Visited σ) Value) : EvalM (Visited σ) Value :=
  ExceptT.mk fun s =>
    let (answer, t) := x.run.run ⟨s.state, []⟩
    (answer, ⟨t.state, s.visits ++ [⟨n, answer, t.visits⟩]⟩)

end Visited

variable {σ : Type}

/-- The environment that does the same beside the visits. -/
def Environment.visited (env : Environment σ) : Environment (Visited σ) where
  load name s := (env.load name s.state).map id s.setState
  set name a s := (env.set name a s.state).map id s.setState
  call id args := Visited.lift (env.call id args)
  components entries := Visited.lift (env.components entries)

/-- The observer who writes visits down. -/
def Observer.recorder (env : Environment σ) : Observer (Visited σ) :=
  ⟨fun _ => env.visited, fun _ => Visited.record⟩

namespace Node

open EvalM

/-- The answer of evaluating the node at a place and the state that it leaves, with the visits on
the way. -/
def runVisitedAt (env : Environment σ) (path : Path) (n : Node) (s : σ) :
    Except EvalError Value × Visited σ :=
  (n.evalBy (.recorder env) path).run.run ⟨s, []⟩

/-- The answer of evaluating a node and the state that it leaves, with the visits on the way. -/
def runVisited (env : Environment σ) (n : Node) (s : σ) : Except EvalError Value × Visited σ :=
  n.runVisitedAt env [] s

/-- The visit to the node at a place. -/
def visitAt (env : Environment σ) (path : Path) (n : Node) (s : σ) : Visit :=
  ⟨n, (n.runVisitedAt env path s).1, (n.runVisitedAt env path s).2.visits⟩

/-- The visit to a node. -/
def visit (env : Environment σ) (n : Node) (s : σ) : Visit := n.visitAt env [] s

/-! ## Writing down changes nothing -/

/-- Beside the visits, the evaluation does what it does without an observer. -/
theorem relatesSteps_recorder (env : Environment σ) (n : Node) :
    RelatesSteps (.recorder env) (.idle env) (fun x y _ => Maps Visited.state x y) n where
  pure := .pure
  bind := .bind
  -- A recorded evaluation starts without visits, which makes no difference to its state.
  around _ _ _ h s := h ⟨s.state, []⟩
  read _ _ _ _ := rfl
  write _ _ _ _ _ _ := rfl
  call _ _ _ _ _ _ _ := rfl
  components _ _ _ _ := rfl
  notCallable f _ _ _ := .throw (.notCallable f)
  badTarget target _ _ _ _ := .throw (.badTarget target)
  badPattern _ _ _ message source := .throw (@EvalError.badPattern message source)

/-- The evaluation that writes down its visits is the evaluation. -/
theorem runVisited_state (env : Environment σ) (n : Node) (s : σ) :
    (n.runVisited env s).map id Visited.state = n.run env s := by
  have h := relates_evalBy_unsited (relatesSteps_recorder env n) [] ⟨s, []⟩
  rw [evalBy_idle] at h
  exact h.symm

/-! ## The expressions of templates -/

/-- Whatever a recorded computation does, one visit is written down for it. -/
theorem nodes_record (n : Node) (x : EvalM (Visited σ) Value) (s : Visited σ) :
    ((Visited.record n x).run.run s).2.visits.map Visit.node = s.visits.map Visit.node ++ [n] :=
  List.map_append

/-- The text of a template that has a piece of text in front of each expression needs all of
them. -/
theorem nodes_of_evalTemplateBy (env : Environment σ) (path : Path) {i : Nat}
    {quasis : List String} {as : List Node} (hlen : as.length ≤ quasis.length) {s t : Visited σ}
    {text : String}
    (h : (evalTemplateBy (.recorder env) path i quasis as).run.run s = (.ok text, t)) :
    t.visits.map Visit.node = s.visits.map Visit.node ++ as := by
  -- The pieces are taken away with the expressions, so their number is compared at every step.
  induction as generalizing quasis i s t text with
  | nil =>
    rw [evalTemplateBy] at h
    obtain ⟨-, rfl⟩ := Prod.mk.inj h
    exact (List.append_nil _).symm
  | cons a as ih =>
    cases quasis with
    | nil => cases hlen
    | cons q quasis =>
      -- The run is taken apart into the first expression, the rest, and the joined text.
      rw [evalTemplateBy] at h
      obtain ⟨x, u, hx, h⟩ := exists_of_run_bind_eq_ok h
      obtain ⟨rest, v, hrest, h⟩ := exists_of_run_bind_eq_ok h
      obtain ⟨-, rfl⟩ := Prod.mk.inj h
      have hu : u.visits.map Visit.node = s.visits.map Visit.node ++ [a] := by
        rw [← nodes_record a (a.evalBy (.recorder env) (path ++ [i])) s]
        exact congrArg (·.2.visits.map Visit.node) hx.symm
      rw [ih (Nat.le_of_succ_le_succ hlen) hrest, hu, List.append_assoc, List.singleton_append]

/-- The visit to a template that has enough pieces of text. -/
theorem fills_visitAt (env : Environment σ) (path : Path) {n : Node}
    (hn : ∀ quasis as, n = template quasis as → as.length ≤ quasis.length) (s : σ) :
    (n.visitAt env path s).Fills := by
  rintro quasis as x rfl hx
  obtain ⟨t, ht⟩ : ∃ t, (template quasis as).runVisitedAt env path s = (.ok x, t) :=
    ⟨_, Prod.ext hx rfl⟩
  rw [visitAt, ht]
  rw [runVisitedAt, evalBy] at ht
  obtain ⟨text, u, htext, h⟩ := exists_of_run_bind_eq_ok ht
  obtain ⟨-, rfl⟩ := Prod.mk.inj h
  exact nodes_of_evalTemplateBy env path (hn quasis as rfl) htext

/-- All visits so far have evaluated the expressions of templates. -/
def AllFill (s : Visited σ) : Prop := ∀ v ∈ Visit.allOf s.visits, v.Fills

/-- Where each template has enough pieces of text, the visits on the way evaluate the expressions of
templates. -/
theorem relatesSteps_allFill (env : Environment σ) {n : Node}
    (hn : ∀ m ∈ n.nodes, ∀ quasis as, m = template quasis as → as.length ≤ quasis.length) :
    RelatesSteps (.recorder env) (.recorder env)
      (fun x _ _ => Leads (fun s t => AllFill s → AllFill t) x) n := by
  refine relatesSteps_leads (fun _ h => h) (fun h h' hs => h' (h hs)) ?around ?read ?write ?call
    ?components
  case around =>
    intro path m hm hx s hs
    have hparts : AllFill (m.runVisitedAt env path s.state).2 := hx _ (List.forall_mem_nil _)
    intro v hv
    have hvisits : v ∈ Visit.allOf (s.visits ++ [m.visitAt env path s.state]) := hv
    rw [Visit.allOf_append, List.mem_append, Visit.allOf_singleton, Visit.mem_all_iff] at hvisits
    -- A visit from before, the one that ends here, or one on its way.
    rcases hvisits with hv | rfl | hv
    · exact hs v hv
    · exact fills_visitAt env path (hn m hm) s.state
    · exact hparts v hv
  -- The environment writes no visits down.
  case read => exact fun _ _ _ h => h
  case write => exact fun _ _ _ _ _ _ h => h
  case call => exact fun _ _ _ _ h => h
  case components => exact fun _ _ _ _ h => h

/-- On the way of a visit to a tree, all templates are filled if each has enough pieces of text. -/
theorem fills_of_mem_visit (env : Environment σ) {n : Node}
    (hn : ∀ m ∈ n.nodes, ∀ quasis as, m = template quasis as → as.length ≤ quasis.length) (s : σ) :
    ∀ v ∈ (n.visit env s).all, v.Fills := by
  intro v hv
  rcases Visit.mem_all_iff.mp hv with rfl | hv
  · exact fills_visitAt env [] (hn n n.mem_nodes_self) s
  · exact relates_evalBy_unsited (relatesSteps_allFill env hn) [] ⟨s, []⟩
      (List.forall_mem_nil _) v hv

end Node

end Brace
