/-
# The names that a tree mentions

In a scope, an evaluation reads and writes only variables that its tree mentions.  So it cannot tell
two scopes apart that agree on these names.  Main statement: `Node.run_of_agreeOn`.
-/
import Brace.Eval.Scope
import Brace.Proofs.Eval.Effects

namespace Brace

section

variable [Regex.Engine]

/-! ## Scopes that agree -/

namespace Scope

/-- Two scopes have the same values under the given names. -/
def AgreeOn (names : List String) (a b : Scope) : Prop :=
  ∀ name ∈ names, a.get name = b.get name

/-- Scopes that agree still do so when a variable is written in both of them. -/
theorem AgreeOn.set {names : List String} {a b : Scope} (h : AgreeOn names a b) (name : String)
    (x : Value) : AgreeOn names (a.set name x) (b.set name x) := by
  intro other hother
  have := h other hother
  simp only [get, lookup?_set] at this ⊢
  split
  · rfl
  · exact this

end Scope

end

namespace Node

/-! ## Names -/

/-- The name of a variable. -/
def name? : Node → Option String
  | identifier name => some name
  | _ => none

/-- The names that a tree mentions, be it in variables, in targets of assignments or in keys. -/
def names (n : Node) : List String := n.nodes.filterMap name?

theorem mem_names {name : String} {n : Node} (h : identifier name ∈ n.nodes) : name ∈ n.names :=
  List.mem_filterMap.mpr ⟨identifier name, h, rfl⟩

/-! ## Runs that agree -/

open EvalM

section

variable [Regex.Engine] {η : Type} {names : List String}

/-- The same effects so far, hosts in the same state, and scopes that agree. -/
structure StatesAgree (names : List String) (s t : Logged (Scoped η)) : Prop where
  /-- The effects. -/
  log : s.log = t.log
  /-- What the host remembers. -/
  host : s.state.host = t.state.host
  /-- The variables. -/
  scope : Scope.AgreeOn names s.state.scope t.state.scope

/-- From states that agree, both computations have the same answer and leave states that agree. -/
def RunsAgree (names : List String) {α : Type} (x y : EvalM (Logged (Scoped η)) α) : Prop :=
  ∀ s t, StatesAgree names s t →
    (x.run.run s).1 = (y.run.run t).1 ∧ StatesAgree names (x.run.run s).2 (y.run.run t).2

/-- Agreement is kept from one computation to the next, as what they answer is the same. -/
theorem RunsAgree.bind {α β : Type} {x y : EvalM (Logged (Scoped η)) α}
    {k l : α → EvalM (Logged (Scoped η)) β} (h : RunsAgree names x y)
    (hk : ∀ a, RunsAgree names (k a) (l a)) : RunsAgree names (x >>= k) (y >>= l) := by
  intro s t hst
  obtain ⟨hanswer, hstate⟩ := h s t hst
  rw [run_bind, run_bind]
  generalize x.run.run s = r at hanswer hstate ⊢
  generalize y.run.run t = r' at hanswer hstate ⊢
  obtain ⟨answer, u⟩ := r
  obtain ⟨_, v⟩ := r'
  cases hanswer
  cases answer with
  | error e => exact ⟨rfl, hstate⟩
  | ok a => exact hk a u v hstate

/-- In scopes, the steps of evaluating a node agree. -/
theorem relatesSteps_runsAgree (host : Host η) (n : Node) :
    RelatesSteps (.idle ((Scoped.environment host).logged []))
      (.idle ((Scoped.environment host).logged [])) (fun x y _ => RunsAgree n.names x y) n where
  pure _ _ _ h := ⟨rfl, h⟩
  bind := RunsAgree.bind
  around _ _ _ h := h
  -- Both scopes have the same value for a name that is mentioned.
  read _ name hname s t h :=
    ⟨congrArg Except.ok (h.scope name (mem_names hname)), h.log, h.host, h.scope⟩
  write _ name a hname x s t h := by
    -- The value that is written is answered, and both logs get the same event.
    exact ⟨rfl, congrArg (· ++ [_]) h.log, h.host, h.scope.set name x⟩
  call _ f args _ id xs := by
    -- A function sees its arguments and the state of the host, which are the same.
    rintro ⟨⟨a, s⟩, log⟩ ⟨⟨b, _⟩, _⟩ ⟨rfl, rfl, hscope⟩
    exact ⟨rfl, rfl, rfl, hscope⟩
  components _ entries _ s t h := ⟨rfl, congrArg (· ++ [_]) h.log, h.host, h.scope⟩
  notCallable _ _ _ _ _ _ h := ⟨rfl, h⟩
  badTarget _ _ _ _ _ _ _ h := ⟨rfl, h⟩
  badPattern _ _ _ _ _ _ _ h := ⟨rfl, h⟩

/-- The evaluation in an environment that writes down its effects is the evaluation. -/
theorem run_logged_state {σ : Type} (env : Environment σ) (n : Node) (s : σ) :
    (n.run (env.logged []) ⟨s, []⟩).map id Logged.state = n.run env s :=
  have hunplaced := maps_evalBy (environmentMaps_unplaced env) n [] ⟨s, []⟩
  (congrArg (Prod.map id Logged.state) hunplaced).trans (runLogged_state env n s)

/-- In two scopes that agree on the names that a tree mentions, and with the same host, the tree has
the same answer.  It has the same effects, so it calls the same functions with the same arguments in
the same order.  The hosts that are left are the same, and the scopes agree on these names again. -/
theorem run_of_agreeOn (host : Host η) {n : Node} {a b : Scope} (h : Scope.AgreeOn n.names a b)
    (s : η) :
    let run (scope : Scope) := n.run (Scoped.environment host) ⟨scope, s⟩
    let effects (scope : Scope) := n.effects (Scoped.environment host) ⟨scope, s⟩
    (run a).1 = (run b).1 ∧ (effects a).map Event.unplaced = (effects b).map Event.unplaced ∧
      (run a).2.host = (run b).2.host ∧
      Scope.AgreeOn n.names (run a).2.scope (run b).2.scope := by
  intro run effects
  -- The log becomes part of the state, so that one relation speaks of everything that is compared.
  have hrun (scope : Scope) : run scope = _ :=
    (run_logged_state (Scoped.environment host) n ⟨scope, s⟩).symm
  have heffects (scope : Scope) : (effects scope).map Event.unplaced = _ :=
    (run_logged_log (Scoped.environment host) n ⟨scope, s⟩).symm
  rw [hrun, hrun, heffects, heffects]
  obtain ⟨hanswer, hlog, hhost, hscope⟩ :=
    relates_eval (relatesSteps_runsAgree host n) ⟨⟨a, s⟩, []⟩ ⟨⟨b, s⟩, []⟩ ⟨rfl, rfl, h⟩
  exact ⟨hanswer, hlog, hhost, hscope⟩

end

/-- A variable that a tree does not mention has no influence on it. -/
theorem run_of_agreeOn_call :
    let n := assign (identifier "a")
      (object [(identifier "b", call (identifier "f") [identifier "c"])])
    let host : Host Unit := ⟨fun _ args => pure (.array args)⟩
    let bound := [("b", Value.string "k"), ("c", .null), ("f", .function 0)]
    let a := Scope.ofList bound
    let b := Scope.ofList (("z", .boolean true) :: bound)
    let run (scope : Scope) := n.run (Scoped.environment host) ⟨scope, ()⟩
    let effects (scope : Scope) := n.effects (Scoped.environment host) ⟨scope, ()⟩
    let x := Value.object [("k", .array [.null])]
    Scope.AgreeOn n.names a b ∧ a.get "z" = .null ∧ b.get "z" = .boolean true ∧
      (run a).1 = .ok x ∧ (run b).1 = .ok x ∧
      (effects b).map Event.unplaced =
        [⟨[], .call 0 [.null], .ok (.array [.null])⟩, ⟨[], .set "a" x, .ok x⟩] ∧
      (run b).2.scope.get "a" = x := by
  intro n host bound a b run effects x
  have hnames : n.names = ["a", "b", "f", "c"] := by
    simp [n, names, nodes_eq, children, List.filterMap_cons, name?]
  -- The scopes differ at `z` alone, which the tree does not mention.
  have h : Scope.AgreeOn n.names a b := by
    rw [hnames]
    simp only [Scope.AgreeOn, List.forall_mem_cons]
    exact ⟨rfl, rfl, rfl, rfl, List.forall_mem_nil _⟩
  obtain ⟨hanswer, heffects, -, hscope⟩ := run_of_agreeOn host h ()
  have hname : "a" ∈ n.names := by
    rw [hnames]
    exact List.mem_cons_self
  exact ⟨h, rfl, rfl, rfl, hanswer ▸ rfl, heffects ▸ rfl, hscope "a" hname ▸ rfl⟩

end Node

end Brace
