/-
# Objects and their members

The keys of an object literal and the keys that members are looked up with are values of any kind,
and both count by their display texts only.  So a member of the object is the last value that the
literal has under a key with the same display text.  Main statement:
`Node.getMember_of_run_object`.
-/
import Brace.Eval.Node
import Brace.Eval.Scope
import Brace.Proofs.Eval.Computation
import Brace.Regex.Builtin
import Mathlib.Tactic.ByContra

namespace Brace

/-! ## The last entry under a name -/

namespace Fields

variable {α : Type u} {name : String} {entries : List (String × α)}

/-- Of entries with one name the last one is found. -/
theorem lookup?_ofList_of_last {before after : List (String × α)} {a : α}
    (hentries : entries = before ++ (name, a) :: after) (hafter : ∀ e ∈ after, e.1 ≠ name) :
    lookup? name (ofList entries) = some a := by
  have hnone : lookup? name after.reverse = none := by
    by_contra hsome
    obtain ⟨b, hb⟩ := Option.ne_none_iff_exists'.mp hsome
    exact hafter _ (List.mem_reverse.mp (mem_of_lookup? hb)) rfl
  rw [lookup?_ofList, hentries, List.reverse_append, List.reverse_cons, lookup?_append,
    lookup?_append, hnone]
  simp [lookup?]

/-- A name that no entry has is not found. -/
theorem lookup?_ofList_eq_none (h : ∀ e ∈ entries, e.1 ≠ name) :
    lookup? name (ofList entries) = none := by
  by_contra hsome
  obtain ⟨a, ha⟩ := Option.ne_none_iff_exists'.mp hsome
  rw [lookup?_ofList] at ha
  exact h _ (List.mem_reverse.mp (mem_of_lookup? ha)) rfl

end Fields

namespace Node

open EvalM

section

variable [Regex.Engine] {σ : Type} {env : Environment σ}

/-! ## The values of properties -/

/-- Where the properties of an object literal are evaluated from left to right, each key in front of
its value, they have the given values and lead from one state to the other. -/
inductive Computes (env : Environment σ) :
    List (Node × Node) → σ → List (Value × Value) → σ → Prop where
  | nil {s : σ} : Computes env [] s [] s
  | cons {a b : Node} {ps : List (Node × Node)} {s t u v : σ} {key x : Value}
      {entries : List (Value × Value)} (hkey : a.run env s = (.ok key, t))
      (hvalue : b.run env t = (.ok x, u)) (hrest : Computes env ps u entries v) :
      Computes env ((a, b) :: ps) s ((key, x) :: entries) v

/-- Entries under the display texts of their keys. -/
def named (entries : List (Value × Value)) : List (String × Value) :=
  entries.map fun e => (e.1.display, e.2)

/-- The entries of a literal have values just if each key and each value has one, in this order. -/
theorem evalProperties_eq_ok_iff {ps : List (Node × Node)} {s t : σ}
    {fields : List (String × Value)} :
    (evalProperties env ps).run.run s = (.ok fields, t) ↔
      ∃ entries, Computes env ps s entries t ∧ fields = named entries := by
  constructor
  · -- A run with a result is taken apart at its steps, key by key.
    intro h
    induction ps generalizing s fields with
    | nil =>
      rw [evalProperties] at h
      cases h
      exact ⟨[], .nil, rfl⟩
    | cons p ps ih =>
      obtain ⟨a, b⟩ := p
      rw [evalProperties] at h
      obtain ⟨key, s₁, hkey, h⟩ := exists_of_run_bind_eq_ok h
      obtain ⟨x, s₂, hvalue, h⟩ := exists_of_run_bind_eq_ok h
      obtain ⟨rest, s₃, hrest, h⟩ := exists_of_run_bind_eq_ok h
      cases h
      obtain ⟨entries, hcomputes, rfl⟩ := ih hrest
      exact ⟨(key, x) :: entries, .cons hkey hvalue hcomputes, rfl⟩
  -- A derivation is put together to a run in the same way.
  · rintro ⟨entries, h, rfl⟩
    induction h with
    | nil =>
      rw [evalProperties]
      rfl
    | @cons a b _ _ _ _ _ _ _ _ hkey hvalue _ ih =>
      have ha : (a.eval env).run.run _ = _ := hkey
      have hb : (b.eval env).run.run _ = _ := hvalue
      rw [evalProperties, run_bind, ha]
      simp only
      rw [run_bind, hb]
      simp only
      rw [run_bind, ih]
      rfl

/-- An object literal has the last value under each display text of a key. -/
theorem run_object_eq_ok_iff {ps : List (Node × Node)} {s t : σ} {obj : Value} :
    (object ps).run env s = (.ok obj, t) ↔
      ∃ entries, Computes env ps s entries t ∧ obj = .object (Fields.ofList (named entries)) := by
  rw [run, eval]
  constructor
  · intro h
    obtain ⟨fields, u, hfields, h⟩ := exists_of_run_bind_eq_ok h
    cases h
    obtain ⟨entries, hcomputes, rfl⟩ := evalProperties_eq_ok_iff.mp hfields
    exact ⟨entries, hcomputes, rfl⟩
  · rintro ⟨entries, hcomputes, rfl⟩
    rw [run_bind, evalProperties_eq_ok_iff.mpr ⟨entries, hcomputes, rfl⟩]
    rfl

/-! ## Members of the object -/

variable {entries : List (Value × Value)} {q : Value}

/-- The member of an object is the value of the last entry whose key has the display text asked for.
-/
theorem getMember_named_of_last {before after : List (Value × Value)} {key x : Value}
    (hentries : entries = before ++ (key, x) :: after) (hkey : key.display = q.display)
    (hafter : ∀ e ∈ after, e.1.display ≠ q.display) :
    (Value.object (Fields.ofList (named entries))).getMember q = x := by
  have hnamed : named entries = named before ++ (q.display, x) :: named after := by
    rw [hentries, named, List.map_append, List.map_cons, hkey]
    rfl
  rw [Value.getMember, Fields.lookup?_ofList_of_last hnamed (List.forall_mem_map.mpr hafter)]
  rfl

/-- The member of an object is `null` where no key has the display text asked for. -/
theorem getMember_named_eq_null (h : ∀ e ∈ entries, e.1.display ≠ q.display) :
    (Value.object (Fields.ofList (named entries))).getMember q = .null := by
  have hnone : Fields.lookup? q.display (Fields.ofList (named entries)) = none :=
    Fields.lookup?_ofList_eq_none (List.forall_mem_map.mpr h)
  rw [Value.getMember, hnone]
  rfl

/-- Where an object literal has a value, its keys and properties have values, which are determined.
The member of the object under a value, of whatever kind, is the property behind the last key with
the same display text, and `null` if no key has this display text. -/
theorem getMember_of_run_object {ps : List (Node × Node)} {s t : σ} {obj : Value}
    (h : (object ps).run env s = (.ok obj, t)) :
    (∃ entries, Computes env ps s entries t) ∧
    ∀ entries u, Computes env ps s entries u → u = t ∧
      ∀ q : Value,
        (∀ before key x after, entries = before ++ (key, x) :: after →
          key.display = q.display → (∀ e ∈ after, e.1.display ≠ q.display) →
          obj.getMember q = x) ∧
        ((∀ e ∈ entries, e.1.display ≠ q.display) → obj.getMember q = .null) := by
  obtain ⟨entries, hcomputes, -⟩ := run_object_eq_ok_iff.mp h
  refine ⟨⟨entries, hcomputes⟩, fun entries u hentries => ?_⟩
  -- Every derivation gives the run, and a run has one answer and one state.
  have hrun := run_object_eq_ok_iff.mpr ⟨entries, hentries, rfl⟩
  obtain ⟨hobj, rfl⟩ := Prod.mk.inj (h.symm.trans hrun)
  obtain rfl := Except.ok.inj hobj
  exact ⟨rfl, fun q => ⟨fun before key x after => getMember_named_of_last,
    getMember_named_eq_null⟩⟩

end

/-- An unbound variable, the text `null` and a list with this text are one key, and the last value
counts. -/
theorem getMember_of_run_object_null :
    let ps := [(identifier "a", string "x"), (string "null", string "y"),
      (array [string "null"], boolean true)]
    let env := Scoped.environment Host.none
    let s : Scoped Unit := ⟨.empty, ()⟩
    let entries := [(Value.null, Value.string "x"), (.string "null", .string "y"),
      (.array [.string "null"], .boolean true)]
    let obj := Value.object [("null", .boolean true)]
    (object ps).run env s = (.ok obj, s) ∧ Computes env ps s entries s ∧
      obj.getMember .null = .boolean true ∧ obj.getMember (.string "null") = .boolean true ∧
      obj.getMember (.string "a") = .null := by
  intro ps env s entries obj
  have hcomputes : Computes env ps s entries s :=
    .cons rfl rfl (.cons rfl rfl (.cons rfl rfl .nil))
  have hnamed : named entries = [("null", .string "x"), ("null", .string "y"),
      ("null", .boolean true)] := rfl
  have hobj : obj = .object (Fields.ofList (named entries)) := by
    simp [obj, hnamed, Fields.ofList, Fields.insert]
  have hrun : (object ps).run env s = (.ok obj, s) :=
    run_object_eq_ok_iff.mpr ⟨entries, hcomputes, hobj⟩
  obtain ⟨-, hentries⟩ := getMember_of_run_object hrun
  obtain ⟨-, hmembers⟩ := hentries entries s hcomputes
  have hlast (q : Value) (hq : q.display = "null") : obj.getMember q = .boolean true := by
    refine (hmembers q).1 (entries.take 2) _ _ [] rfl ?_ (List.forall_mem_nil _)
    rw [hq]
    rfl
  exact ⟨hrun, hcomputes, hlast _ rfl, hlast _ rfl, (hmembers _).2 (by decide)⟩

end Node

end Brace
