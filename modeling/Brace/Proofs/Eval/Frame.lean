/-
# What an evaluation leaves alone

In a scope, an evaluation writes only the targets of assignments, and it unbinds nothing, whether it
succeeds or fails.  So the scope grows by new targets at most, and without assignments it stays as
it was.  Main statement: `Node.run_changesOnly_targets`.
-/
import Brace.Eval.Scope
import Brace.Proofs.Eval.Observed
import Brace.Regex.Builtin
import Mathlib.Data.List.Dedup

namespace Brace

section

variable [Regex.Engine]

/-! ## Scopes that differ in some names -/

namespace Scope

variable {names : List String} {a b c : Scope}

/-- Where only the given names are written, the first scope becomes the second one. -/
structure ChangesOnly (names : List String) (a b : Scope) : Prop where
  /-- Under the other names there is what was there. -/
  others : ∀ name ∉ names, Fields.lookup? name b.bindings = Fields.lookup? name a.bindings
  /-- What is bound stays bound. -/
  bound : ∀ name, a.contains name = true → b.contains name = true

theorem ChangesOnly.refl (names : List String) (a : Scope) : ChangesOnly names a a :=
  ⟨fun _ _ => rfl, fun _ h => h⟩

/-- What two changes in a row leave alone is left alone by both, and stays bound through both. -/
theorem ChangesOnly.trans (h : ChangesOnly names a b) (h' : ChangesOnly names b c) :
    ChangesOnly names a c :=
  ⟨fun name hname => (h'.others name hname).trans (h.others name hname),
    fun name hname => h'.bound name (h.bound name hname)⟩

/-- Writing one of the names changes nothing else. -/
theorem changesOnly_set {name : String} (hname : name ∈ names) (x : Value) (a : Scope) :
    ChangesOnly names a (a.set name x) where
  others other hother := by
    have hne : name ≠ other := fun heq => hother (heq ▸ hname)
    rw [lookup?_set, if_neg hne]
  bound other hother := by
    rw [contains, Fields.contains, lookup?_set]
    split
    · rfl
    · exact hother

theorem ChangesOnly.eq (h : ChangesOnly [] a b) : b = a := by
  obtain ⟨as, ha⟩ := a
  obtain ⟨bs, hb⟩ := b
  obtain rfl : bs = as := hb.ext ha fun name => h.others name List.not_mem_nil
  rfl

/-! ## The number of variables -/

theorem contains_iff_mem_names {name : String} :
    a.contains name = true ↔ name ∈ Fields.names a.bindings := by
  rw [contains, Fields.contains, Option.isSome_iff_exists]
  simp only [Fields.lookup?_eq_some_iff a.ascending.pairwise_ne, Fields.names, List.mem_map,
    Prod.exists, exists_and_right, exists_eq_right]

/-- No variable is bound twice. -/
theorem nodup_names (a : Scope) : (Fields.names a.bindings).Nodup :=
  List.pairwise_map.mpr a.ascending.pairwise_ne

/-- The size is the number of names that are bound. -/
theorem size_le_length {l : List String} (h : ∀ name, a.contains name = true → name ∈ l) :
    a.size ≤ l.length := by
  have hsub : Fields.names a.bindings ⊆ l :=
    fun name hname => h name (contains_iff_mem_names.mpr hname)
  have := ((nodup_names a).subperm hsub).length_le
  rwa [Fields.names, List.length_map] at this

/-- A scope does not shrink, since what is bound stays bound. -/
theorem ChangesOnly.size_le (h : ChangesOnly names a b) : a.size ≤ b.size := by
  have := size_le_length (a := a) (l := Fields.names b.bindings) fun name hname =>
    contains_iff_mem_names.mp (h.bound name hname)
  rwa [Fields.names, List.length_map] at this

/-- The size grows by the names that were not bound before at most. -/
theorem ChangesOnly.size_le_add (h : ChangesOnly names a b) :
    b.size ≤ a.size + (names.dedup.filter fun name => !a.contains name).length := by
  have := size_le_length (a := b)
    (l := Fields.names a.bindings ++ names.dedup.filter fun name => !a.contains name) ?_
  · rwa [List.length_append, Fields.names, List.length_map] at this
  -- What is bound afterwards was bound before or is a new name that was written.
  intro name hname
  rw [List.mem_append, ← contains_iff_mem_names, List.mem_filter, List.mem_dedup]
  by_cases hbound : a.contains name = true
  · exact Or.inl hbound
  · refine Or.inr ⟨?_, by simpa using hbound⟩
    by_contra hnot
    rw [contains, Fields.contains, h.others name hnot] at hname
    exact hbound hname

end Scope

end

namespace Node

/-! ## Targets -/

/-- The variable to which a node assigns. -/
def target? : Node → Option String
  | assign (identifier name) _ => some name
  | _ => none

/-- The variables to which a tree assigns. -/
def targets (n : Node) : List String := n.nodes.filterMap target?

theorem mem_targets {name : String} {a n : Node} (h : assign (identifier name) a ∈ n.nodes) :
    name ∈ n.targets :=
  List.mem_filterMap.mpr ⟨assign (identifier name) a, h, rfl⟩

/-- Without assignments there are no targets. -/
theorem targets_eq_nil {n : Node} (h : ∀ target a, assign target a ∉ n.nodes) :
    n.targets = [] := by
  refine List.filterMap_eq_nil_iff.mpr fun m hm => ?_
  cases m with
  | assign target a => exact absurd hm (h target a)
  | _ => rfl

/-! ## Runs -/

open EvalM

section

variable [Regex.Engine] {η : Type}

/-- In scopes, the steps of evaluating a node write its targets only. -/
theorem relatesSteps_changesOnly (host : Host η) (n : Node) :
    RelatesSteps (.idle (Scoped.environment host)) (.idle (Scoped.environment host))
      (fun x _ _ => Leads (fun s t => Scope.ChangesOnly n.targets s.scope t.scope) x) n := by
  refine relatesSteps_leads (fun s => .refl _ s.scope) .trans ?around ?read ?write ?call
    ?components
  case around => exact fun _ _ _ h => h
  case read => exact fun _ _ s => .refl _ s.scope
  case write => exact fun _ _ _ h x s => Scope.changesOnly_set (mem_targets h) x s.scope
  -- A function has no access to the scope, and there are no components.
  case call => exact fun _ _ _ s => .refl _ s.scope
  case components => exact fun _ _ _ s => .refl _ s.scope

/-- Whether an evaluation in a scope succeeds or fails: every name that is not the target of an
assignment is bound as before, what was bound stays bound, and the number of variables grows by that
of the new targets at most.  Without assignments the scope is what it was. -/
theorem run_changesOnly_targets (host : Host η) (n : Node) (s : Scoped η) :
    let scope := (n.run (Scoped.environment host) s).2.scope
    (∀ name ∉ n.targets, scope.contains name = s.scope.contains name ∧
      scope.get name = s.scope.get name) ∧
    (∀ name, s.scope.contains name = true → scope.contains name = true) ∧
    s.scope.size ≤ scope.size ∧
    scope.size ≤ s.scope.size +
      (n.targets.dedup.filter fun name => !s.scope.contains name).length ∧
    ((∀ target a, assign target a ∉ n.nodes) → scope = s.scope) := by
  intro scope
  have h : Scope.ChangesOnly n.targets s.scope scope :=
    relates_eval (relatesSteps_changesOnly host n) s
  refine ⟨fun name hname => ?_, h.bound, h.size_le, h.size_le_add, fun hassign => ?_⟩
  · have := h.others name hname
    exact ⟨congrArg Option.isSome this, congrArg (·.getD .null) this⟩
  · rw [targets_eq_nil hassign] at h
    exact h.eq

end

/-- A failure keeps what was assigned before it; the key of an object is not bound. -/
theorem run_changesOnly_targets_failure :
    let n := program [assign (identifier "a") (object [(string "b", null)]), call null []]
    let before := Scope.ofList [("c", .boolean true)]
    let after := (n.run (Scoped.environment Host.none) ⟨before, ()⟩).2.scope
    (n.run (Scoped.environment Host.none) ⟨before, ()⟩).1 = .error (.notCallable null) ∧
      n.targets = ["a"] ∧ after.get "a" = .object [("b", .null)] ∧
      after.contains "b" = false ∧ after.get "c" = .boolean true ∧ after.size ≤ 2 := by
  intro n before after
  have htargets : n.targets = ["a"] := by
    simp [n, targets, nodes_eq, children, List.filterMap_cons, target?]
  obtain ⟨hothers, -, -, hsize, -⟩ := run_changesOnly_targets Host.none n ⟨before, ()⟩
  rw [htargets] at hothers hsize
  exact ⟨rfl, htargets, rfl, (hothers "b" (by decide)).1, (hothers "c" (by decide)).2, hsize⟩

end Node

end Brace
