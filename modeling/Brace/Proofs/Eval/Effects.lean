/-
# The order of effects

Around any environment there is one that writes down what it is asked to do, and where
(`Environment.logged`).  `Node.effects` is what is written down while a node is evaluated.  Main
statement: effects come in the order of their sites, each at most once, and the first one that fails
is the last one and the error of the evaluation; without conditionals, a tree that the parser
answers has all of its effects (`Node.effects_in_order`).
-/
import Brace.Proofs.Eval.Observed
import Brace.Proofs.Node.Roundtrip
import Brace.Regex.Builtin

namespace Brace

/-! ## Parsed trees without conditionals -/

namespace Node

/-- In a regular tree every expression of a template has a piece of text in front of it. -/
theorem length_le_of_regular {limits : Limits} {place : Place} {quasis : List String}
    {as : List Node} (h : Regular limits place (template quasis as)) :
    as.length ≤ quasis.length := by
  generalize hn : template quasis as = n at h
  induction h with
  | template hlen _ _ _ =>
    cases hn
    omega
  | expression _ _ ih => exact ih hn
  | _ => cases hn

/-- The children of the nodes of a parsed tree are all evaluated, those of conditionals apart. -/
theorem unconditional_of_parse {source : String} {n : Node} (h : parse source = .ok n)
    (hn : ∀ m ∈ n.nodes, m.isConditional = false) : ∀ m ∈ n.nodes, m.Unconditional := by
  intro m hm
  refine ⟨hn m hm, ?_⟩
  rintro quasis as rfl
  obtain ⟨_, hregular⟩ := exists_regular_of_mem_nodes h hm
  exact length_le_of_regular hregular

end Node

section

variable [Regex.Engine]

/-! ## Effects -/

/-- What an evaluation makes its environment do. -/
inductive Effect where
  /-- A variable is written. -/
  | set (name : String) (a : Value)
  /-- A function is called. -/
  | call (id : Nat) (args : List Value)
  /-- Components are evaluated. -/
  | components (entries : Fields Json)

/-- The kind of an effect. -/
def Effect.kind : Effect → EffectKind
  | set .. => .set
  | call .. => .call
  | components _ => .components

/-- An effect that has been written down. -/
structure Event where
  /-- The place of the node that has the effect. -/
  path : Path
  /-- The effect. -/
  effect : Effect
  /-- What the environment answered. -/
  answer : Except EvalError Value

namespace Event

/-- Where an effect was. -/
def site (x : Event) : EffectSite := ⟨x.path, x.effect.kind⟩

/-- An effect and its answer, without the place. -/
def unplaced (x : Event) : Event := { x with path := [] }

end Event

/-- A state with all effects so far, in order. -/
structure Logged (σ : Type) where
  /-- The state. -/
  state : σ
  /-- The effects. -/
  log : List Event

namespace Logged

variable {σ : Type}

/-- The state `t` without a further effect. -/
def setState (s : Logged σ) (t : σ) : Logged σ := { s with state := t }

/-- The state `t` behind one more effect. -/
def push (s : Logged σ) (t : σ) (x : Event) : Logged σ := ⟨t, s.log ++ [x]⟩

/-- The state with the effects, but without their places. -/
def unplaced (s : Logged σ) : Logged σ := ⟨s.state, s.log.map Event.unplaced⟩

theorem unplaced_push (s : Logged σ) (t : σ) (x : Event) :
    (s.push t x).unplaced = s.unplaced.push t x.unplaced := by
  simp only [unplaced, push, List.map_append, List.map_singleton]

/-- Lets an environment have an effect, and writes it down with its answer. -/
def perform (path : Path) (effect : Effect) (x : EvalM σ Value) : EvalM (Logged σ) Value :=
  ExceptT.mk fun s =>
    let (answer, t) := x.run.run s.state
    (answer, s.push t ⟨path, effect, answer⟩)

end Logged

variable {σ : Type}

/-- The environment that does the same and writes its effects down, with the place where it is
asked. -/
def Environment.logged (env : Environment σ) (path : Path) : Environment (Logged σ) where
  load name s := (env.load name s.state).map id s.setState
  set name a s :=
    let (x, t) := env.set name a s.state
    (x, s.push t ⟨path, .set name a, .ok x⟩)
  call id args := Logged.perform path (.call id args) (env.call id args)
  components entries := Logged.perform path (.components entries) (env.components entries)

namespace Node

open EvalM

/-- The answer of evaluating a node and the state that it leaves, with the effects. -/
def runLogged (env : Environment σ) (n : Node) (s : σ) : Except EvalError Value × Logged σ :=
  (n.evalBy (.placed env.logged) []).run.run ⟨s, []⟩

/-- The effects of evaluating a node, in order. -/
def effects (env : Environment σ) (n : Node) (s : σ) : List Event := (n.runLogged env s).2.log

/-! ## Writing down changes nothing -/

/-- The second environment does what the first one does, and `f` takes the states of the first to
those of the second. -/
structure EnvironmentMaps {τ : Type} (f : σ → τ) (env : Environment σ) (env' : Environment τ) :
    Prop where
  /-- They read the same. -/
  read : ∀ name, Maps f (env.read name) (env'.read name)
  /-- They write alike. -/
  write : ∀ name a, Maps f (env.write name a) (env'.write name a)
  /-- They call alike. -/
  call : ∀ id args, Maps f (env.call id args) (env'.call id args)
  /-- They evaluate components alike. -/
  components : ∀ entries, Maps f (env.components entries) (env'.components entries)

/-- Where the environment at every place does what a given one does, nodes are evaluated alike. -/
theorem maps_evalBy {τ : Type} {f : σ → τ} {env : Path → Environment σ} {env' : Environment τ}
    (h : ∀ path, EnvironmentMaps f (env path) env') (n : Node) (path : Path) :
    Maps f (n.evalBy (.placed env) path) (n.eval env') := by
  have hsteps : RelatesSteps (.placed env) (.idle env') (fun x y _ => Maps f x y) n := {
    pure := .pure
    bind := .bind
    around := fun _ _ _ hm => hm
    read := fun path name _ => (h path).read name
    write := fun path name _ _ => (h path).write name
    call := fun path _ _ _ => (h path).call
    components := fun path entries _ => (h path).components entries
    notCallable := fun _ _ _ _ => .throw _
    badTarget := fun _ _ _ _ _ => .throw _
    badPattern := fun _ _ _ _ _ => .throw _ }
  have := relates_evalBy_unsited hsteps path
  rwa [evalBy_idle] at this

theorem environmentMaps_state (env : Environment σ) (path : Path) :
    EnvironmentMaps Logged.state (env.logged path) env :=
  ⟨fun _ _ => rfl, fun _ _ _ => rfl, fun _ _ _ => rfl, fun _ _ => rfl⟩

/-- Beside the places, a logged environment does and writes down what the one without places
does. -/
theorem environmentMaps_unplaced (env : Environment σ) (path : Path) :
    EnvironmentMaps Logged.unplaced (env.logged path) (env.logged []) where
  read _ _ := rfl
  write name a s :=
    have hlog := s.unplaced_push (env.set name a s.state).2
      ⟨path, .set name a, .ok (env.set name a s.state).1⟩
    Prod.ext rfl hlog.symm
  call id args s :=
    Prod.ext rfl (s.unplaced_push _ ⟨path, .call id args, _⟩).symm
  components entries s :=
    Prod.ext rfl (s.unplaced_push _ ⟨path, .components entries, _⟩).symm

/-- The evaluation that tells its places is the evaluation. -/
theorem runLogged_state (env : Environment σ) (n : Node) (s : σ) :
    (n.runLogged env s).map id Logged.state = n.run env s :=
  (maps_evalBy (environmentMaps_state env) n [] ⟨s, []⟩).symm

/-- Without their places, the effects are those that the evaluation has in an environment that
writes them down. -/
theorem run_logged_log (env : Environment σ) (n : Node) (s : σ) :
    (n.run (env.logged []) ⟨s, []⟩).2.log = (n.effects env s).map Event.unplaced :=
  congrArg (·.2.log) (maps_evalBy (environmentMaps_unplaced env) n [] ⟨s, []⟩)

/-! ## Effects in order -/

/-- An effect that fails ends an evaluation with its error. -/
def Settles {α : Type} (events : List Event) (answer : Except EvalError α) : Prop :=
  ∀ before x behind e, events = before ++ x :: behind → x.answer = .error e →
    behind = [] ∧ answer = .error e

theorem settles_nil {α : Type} (answer : Except EvalError α) : Settles [] answer := by
  intro before x behind e h
  simp at h

theorem settles_singleton {x : Event} : Settles [x] x.answer := by
  intro before y behind e h he
  obtain ⟨rfl, h⟩ := List.append_eq_singleton_iff.mp h.symm |>.resolve_right (by simp)
  obtain ⟨rfl, rfl⟩ := List.cons.inj h
  exact ⟨rfl, he⟩

/-- Where the effects of one step are settled without an error, those of the next step decide. -/
theorem Settles.append {α β : Type} {xs ys : List Event} {a : α} {answer : Except EvalError β}
    (h : Settles xs (.ok a : Except EvalError α)) (h' : Settles ys answer) :
    Settles (xs ++ ys) answer := by
  intro before x behind e heq he
  rcases List.append_eq_append_iff.mp heq with ⟨more, rfl, hys⟩ | ⟨more, hxs, hbehind⟩
  · exact h' more x behind e hys he
  · cases more with
    | nil =>
      rw [List.nil_append] at hbehind
      exact h' [] x behind e hbehind.symm he
    | cons y more =>
      obtain ⟨rfl, -⟩ := List.cons.inj hbehind
      cases (h before x more e hxs he).2

/-- A failure that is settled stays so, whatever was to come behind it. -/
theorem Settles.of_error {α β : Type} {xs : List Event} {e : EvalError}
    (h : Settles xs (.error e : Except EvalError α)) :
    Settles xs (.error e : Except EvalError β) := by
  intro before x behind e' heq he
  obtain ⟨hbehind, herror⟩ := h before x behind e' heq he
  cases herror
  exact ⟨hbehind, rfl⟩

/-- The computation writes its effects down behind those that are there, in the order of the given
sites, and what fails is its last effect. -/
def Logs {α : Type} (x : EvalM (Logged σ) α) (ss : List EffectSite) : Prop :=
  ∀ s, ∃ events, (x.run.run s).2.log = s.log ++ events ∧
    (events.map Event.site).Sublist ss ∧ Settles events (x.run.run s).1

/-- Where the computation succeeds, it has had all the effects of the given sites. -/
def LogsAll {α : Type} (x : EvalM (Logged σ) α) (ss : List EffectSite) : Prop :=
  ∀ s a t, x.run.run s = (.ok a, t) → t.log.map Event.site = s.log.map Event.site ++ ss

/-- Asking the environment for something is one event, with what it answered. -/
theorem logs_perform (path : Path) (effect : Effect) (x : EvalM σ Value) :
    Logs (Logged.perform path effect x) [⟨path, effect.kind⟩] :=
  fun _ => ⟨[⟨path, effect, _⟩], rfl, List.Sublist.refl _, settles_singleton⟩

theorem logs_of_log_eq {α : Type} {x : EvalM (Logged σ) α}
    (h : ∀ s, (x.run.run s).2.log = s.log) (ss : List EffectSite) : Logs x ss :=
  fun s => ⟨[], (h s).trans (List.append_nil _).symm, List.nil_sublist _, settles_nil _⟩

/-- A computation behind another writes its effects down behind those of the other, if it is reached
at all. -/
theorem Logs.bind {α β : Type} {x : EvalM (Logged σ) α} {k : α → EvalM (Logged σ) β}
    {ss ts : List EffectSite} (hx : Logs x ss) (hk : ∀ a, Logs (k a) ts) :
    Logs (x >>= k) (ss ++ ts) := by
  intro s
  obtain ⟨xs, hlog, hsub, hsettles⟩ := hx s
  rw [run_bind]
  generalize x.run.run s = r at hlog hsettles ⊢
  obtain ⟨answer, t⟩ := r
  cases answer with
  | error e =>
    -- The second computation is not reached, and its sites are left out.
    exact ⟨xs, hlog, hsub.trans (List.sublist_append_left ss ts), hsettles.of_error⟩
  | ok a =>
    obtain ⟨ys, hlog', hsub', hsettles'⟩ := hk a t
    have hlog : t.log = s.log ++ xs := hlog
    refine ⟨xs ++ ys, ?_, ?_, hsettles.append hsettles'⟩
    · show ((k a).run.run t).2.log = _
      rw [hlog', hlog, List.append_assoc]
    · rw [List.map_append]
      exact hsub.append hsub'

/-- What an evaluation logs is in the order of the sites. -/
theorem relatesSteps_logs (env : Environment σ) (n : Node) :
    RelatesSteps (.placed env.logged) (.placed env.logged) (fun x _ ss => Logs x ss) n where
  pure _ := logs_of_log_eq (fun _ => rfl) _
  bind hx hk := hx.bind hk
  around _ _ _ h := h
  -- Reading is not written down.
  read _ _ _ := logs_of_log_eq (fun _ => rfl) _
  write path name _ _ x _ :=
    ⟨[⟨path, .set name x, _⟩], rfl, List.Sublist.refl _, settles_singleton⟩
  call path _ _ _ id args := logs_perform path (.call id args) _
  components path entries _ := logs_perform path (.components entries) _
  notCallable _ _ _ := logs_of_log_eq fun _ => rfl
  badTarget _ _ _ _ := logs_of_log_eq fun _ => rfl
  badPattern _ _ _ _ _ := logs_of_log_eq (fun _ => rfl) _

/-- Where sites are left out there may be more of them. -/
theorem skipsSites_logs : SkipsSites fun {α} (x _ : EvalM (Logged σ) α) ss => Logs x ss := by
  intro α x _ ss ts hsub h s
  obtain ⟨events, hlog, hevents, hsettles⟩ := h s
  exact ⟨events, hlog, hevents.trans hsub, hsettles⟩

/-- What is asked of the environment is written down with its site, whether or not it succeeds. -/
theorem logsAll_perform (path : Path) (effect : Effect) (x : EvalM σ Value) :
    LogsAll (Logged.perform path effect x) [⟨path, effect.kind⟩] := by
  intro s a t h
  obtain ⟨-, rfl⟩ := Prod.mk.inj h
  exact List.map_append

/-- A computation that writes nothing down has had all effects of no site. -/
theorem logsAll_of_log_eq {α : Type} {x : EvalM (Logged σ) α}
    (h : ∀ s, (x.run.run s).2.log = s.log) : LogsAll x [] := by
  intro s a t hrun
  have hlog := h s
  rw [hrun] at hlog
  rw [hlog, List.append_nil]

theorem logsAll_throw {α : Type} (e : EvalError) (ss : List EffectSite) :
    LogsAll (throw e : EvalM (Logged σ) α) ss := by
  intro s a t h
  cases (Prod.mk.inj h).1

theorem LogsAll.bind {α β : Type} {x : EvalM (Logged σ) α} {k : α → EvalM (Logged σ) β}
    {ss ts : List EffectSite} (hx : LogsAll x ss) (hk : ∀ a, LogsAll (k a) ts) :
    LogsAll (x >>= k) (ss ++ ts) := by
  intro s b u h
  -- Both computations have succeeded, as the whole has.
  obtain ⟨a, t, hr, ht⟩ := exists_of_run_bind_eq_ok h
  rw [hk a t b u ht, hx s a t hr, List.append_assoc]

/-- An evaluation that succeeds and skips nothing logs every site. -/
theorem relatesSteps_logsAll (env : Environment σ) (n : Node) :
    RelatesSteps (.placed env.logged) (.placed env.logged) (fun x _ ss => LogsAll x ss) n where
  pure _ := logsAll_of_log_eq fun _ => rfl
  bind hx hk := hx.bind hk
  around _ _ _ h := h
  read _ _ _ := logsAll_of_log_eq fun _ => rfl
  write path name _ _ x s b t h := by
    obtain ⟨-, rfl⟩ := Prod.mk.inj h
    exact List.map_append
  call path _ _ _ id args := logsAll_perform path (.call id args) _
  components path entries _ := logsAll_perform path (.components entries) _
  notCallable _ _ _ := logsAll_throw _
  badTarget _ _ _ _ := logsAll_throw _
  badPattern _ _ _ _ _ := logsAll_throw _ _

/-- The effects of an evaluation come in the order of their sites, each at most once; the first that
fails is the last one, and its error is the answer.  Where the tree is the answer of the parser and
has no conditionals, an evaluation that succeeds has had the effects of all sites.  The evaluation
that tells the places of its effects has the answer, the state and the effects of the one that does
not. -/
theorem effects_in_order (env : Environment σ) (n : Node) (s : σ) :
    (n.runLogged env s).map id Logged.state = n.run env s ∧
      (n.run (env.logged []) ⟨s, []⟩).2.log = (n.effects env s).map Event.unplaced ∧
      ((n.effects env s).map Event.site).Sublist (sites [] n) ∧ (sites [] n).Nodup ∧
      (∀ before x behind e, n.effects env s = before ++ x :: behind → x.answer = .error e →
        behind = [] ∧ (n.run env s).1 = .error e) ∧
      ∀ source a, parse source = .ok n → (∀ m ∈ n.nodes, m.isConditional = false) →
        (n.run env s).1 = .ok a → (n.effects env s).map Event.site = sites [] n := by
  have hstate := runLogged_state env n s
  -- The instrumented run answers as the run does, so its last event is the failure of both.
  have hanswer : (n.runLogged env s).1 = (n.run env s).1 := congrArg Prod.fst hstate
  refine ⟨hstate, run_logged_log env n s, ?_⟩
  obtain ⟨events, hlog, hsub, hsettles⟩ :=
    relates_evalBy (relatesSteps_logs env n) n (fun _ hm => hm) (.inr (@skipsSites_logs _ σ)) []
      ⟨s, []⟩
  obtain rfl : n.effects env s = events := hlog
  refine ⟨hsub, nodup_sites [] n, ?_, ?_⟩
  · intro before x behind e heq he
    rw [← hanswer]
    exact hsettles before x behind e heq he
  · intro source a hparse hn hok
    -- Without conditionals no site is left out, and a run that succeeds has passed all of them.
    have hall := relates_evalBy (relatesSteps_logsAll env n) n (fun _ hm => hm)
      (.inl (unconditional_of_parse hparse hn)) []
    rw [← hanswer] at hok
    exact hall ⟨s, []⟩ a (n.runLogged env s).2 (Prod.ext hok rfl)

end Node

end

namespace Node

/-- An argument that assigns is evaluated in front of the call, whether the call succeeds or
fails. -/
theorem effects_in_order_assignment :
    let n := call (identifier "f") [assign (identifier "a") null]
    let env (answer : EvalM Unit Value) : Environment Unit :=
      { load := fun _ s => (.function 0, s), set := fun _ a s => (a, s), call := fun _ _ => answer }
    let failed : Except EvalError Value := .error (.host "no")
    parse "f((a = null))" = .ok n ∧ (∀ m ∈ n.nodes, m.isConditional = false) ∧
      (n.run (env (pure (.boolean true))) ()).1 = .ok (.boolean true) ∧
      (n.effects (env (pure (.boolean true))) ()).map Event.site = [⟨[1], .set⟩, ⟨[], .call⟩] ∧
      n.effects (env (throw (.host "no"))) () =
        [⟨[1], .set "a" .null, .ok .null⟩] ++ ⟨[], .call 0 [.null], failed⟩ :: [] ∧
      (n.run (env (throw (.host "no"))) ()).1 = failed := by
  intro n env failed
  have hf : IsName "f" := ⟨⟨'f', [], rfl, by decide, List.forall_mem_nil _⟩, by decide⟩
  have ha : IsName "a" := ⟨⟨'a', [], rfl, by decide, List.forall_mem_nil _⟩, by decide⟩
  -- The text is that of the tree, and so it is parsed to the tree.
  have hregular : Regular .parsed .expression n :=
    .call (.identifier hf) (List.forall_mem_singleton.mpr (.assign rfl (.identifier ha) .null))
  have hparse : parse n.source = .ok n := parse_source (.expression nofun hregular)
  rw [show n.source = "f((a = null))" by decide] at hparse
  have hn : ∀ m ∈ n.nodes, m.isConditional = false := by
    simp [n, nodes_eq, children, isConditional]
  have hsites : sites [] n = [⟨[1], .set⟩, ⟨[], .call⟩] := rfl
  obtain ⟨-, -, -, -, -, hall⟩ := effects_in_order (env (pure (.boolean true))) n ()
  obtain ⟨-, -, -, -, hfails, -⟩ := effects_in_order (env (throw (.host "no"))) n ()
  exact ⟨hparse, hn, rfl, hsites ▸ hall _ _ hparse hn rfl, rfl, (hfails _ _ _ _ rfl rfl).2⟩

end Node

end Brace
