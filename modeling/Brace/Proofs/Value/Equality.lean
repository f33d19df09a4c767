/-
# Equality of values

Equality of values is symmetric and transitive, and a value is equal to itself exactly if there is
no undefined number in it (`same_self_iff`).  Objects are compared entry by entry in the order of
their names, which is the same as comparing what is found under each name (`sameFields_iff`); the
order in which an object was filled leaves no trace in it (`Fields.ofList_eq_of_perm`).  Equal
values have the same display text, so that the same member is found under them
(`display_eq_of_same`).  The main statement is `same_partial_equivalence`.
-/
import Brace.Value.Member
import Brace.Proofs.Value.Json

namespace Brace

/-! ## Numbers -/

namespace Number

theorem beq_comm (x y : Float) : (x == y) = (y == x) := by
  rw [Bool.eq_iff_iff, Float.beq_iff_ne_nan_and_eq, Float.beq_iff_ne_nan_and_eq]
  tauto

/-- The two zeros are equal to one another and to nothing else, so a chain of equalities passes
through them at most. -/
theorem beq_trans {x y z : Float} (h : (x == y) = true) (h' : (y == z) = true) :
    (x == z) = true := by
  rw [Float.beq_iff_ne_nan_and_eq] at h h' ⊢
  obtain ⟨hx, hy, h⟩ := h
  obtain ⟨-, hz, h'⟩ := h'
  refine ⟨hx, hz, ?_⟩
  -- Either the numbers are one, or the first two are the zeros in one of both orders.
  rcases h with rfl | ⟨rfl, rfl⟩ | ⟨rfl, rfl⟩
  · exact h'
  · rcases h' with rfl | ⟨h0, rfl⟩ | ⟨-, rfl⟩
    · exact Or.inr (Or.inl ⟨rfl, rfl⟩)
    · exact Or.inl h0.symm
    · exact Or.inl rfl
  · rcases h' with rfl | ⟨-, rfl⟩ | ⟨h0, rfl⟩
    · exact Or.inr (Or.inr ⟨rfl, rfl⟩)
    · exact Or.inl rfl
    · exact Or.inl h0.symm

theorem beq_self_iff {x : Float} : (x == x) = true ↔ x ≠ nan := Float.beq_self_iff

/-- The zeros are displayed alike, and all other numbers that are equal are the same. -/
theorem display_eq_of_beq {x y : Float} (h : (x == y) = true) : display x = display y := by
  obtain ⟨-, -, rfl | ⟨rfl, rfl⟩ | ⟨rfl, rfl⟩⟩ := Float.beq_iff_ne_nan_and_eq.mp h
  · rfl
  · rfl
  · rfl

end Number

/-! ## Filling a map -/

namespace Fields

variable {α : Type u}

/-- Where each name occurs once, the order of the entries makes no difference. -/
theorem ofList_eq_of_perm {entries entries' : List (String × α)} (h : entries.Perm entries')
    (hnodup : (entries.map Prod.fst).Nodup) : ofList entries = ofList entries' := by
  have hne {es : List (String × α)} (hes : (es.map Prod.fst).Nodup) :
      es.reverse.Pairwise fun a b => a.1 ≠ b.1 :=
    List.pairwise_reverse.mpr ((List.pairwise_map.mp hes).imp Ne.symm)
  apply (ascending_ofList entries).ext (ascending_ofList entries')
  intro name
  rw [lookup?_ofList, lookup?_ofList]
  ext a
  rw [lookup?_eq_some_iff (hne hnodup),
    lookup?_eq_some_iff (hne ((h.map Prod.fst).nodup_iff.mp hnodup)), List.mem_reverse,
    List.mem_reverse, h.mem_iff]

/-- A name in front of all others is not found. -/
theorem lookup?_eq_none_of_lt {name : String} {fields : Fields α}
    (h : ∀ entry ∈ fields, name < entry.1) : lookup? name fields = none := by
  cases hl : lookup? name fields with
  | none => rfl
  | some a => exact absurd (h _ (mem_of_lookup? hl)) (String.lt_irrefl name)

theorem lookup?_cons_eq_none_of_lt {name key : String} {a : α} {fields : Fields α}
    (hlt : name < key) (h : ∀ entry ∈ fields, key < entry.1) :
    lookup? name ((key, a) :: fields) = none := by
  apply lookup?_eq_none_of_lt
  rw [List.forall_mem_cons]
  exact ⟨hlt, fun entry hentry => String.lt_trans hlt (h entry hentry)⟩

end Fields

namespace Value

open Fields (lookup? Ascending)

section

variable [Regex.Engine]

/-! ## Symmetry and transitivity -/

mutual

/-- Equality does not depend on the side, shown together with the same for items and for entries. -/
theorem same_comm : ∀ u v : Value, same u v = same v u
  -- Values of two kinds are unequal on both sides.
  | array xs, v => by
    cases v with
    | array ys => rw [same, same, sameItems_comm xs ys]
    | _ => rfl
  | object xs, v => by
    cases v with
    | object ys => rw [same, same, sameFields_comm xs ys]
    | _ => rfl
  | number x, v => by
    cases v with
    | number y => rw [same, same, Number.beq_comm]
    | _ => rfl
  | null, v | boolean _, v | string _, v | pattern _, v | function _, v => by
    cases v <;> first | rfl | exact Bool.beq_comm ..

theorem sameItems_comm : ∀ xs ys : List Value, sameItems xs ys = sameItems ys xs
  | [], [] | [], _ :: _ | _ :: _, [] => rfl
  | x :: xs, y :: ys => by rw [sameItems, sameItems, same_comm x y, sameItems_comm xs ys]

theorem sameFields_comm : ∀ xs ys : List (String × Value), sameFields xs ys = sameFields ys xs
  | [], [] | [], _ :: _ | _ :: _, [] => rfl
  | (k, x) :: xs, (l, y) :: ys => by
    rw [sameFields, sameFields, Bool.beq_comm, same_comm x y, sameFields_comm xs ys]

end

/-- Values other than numbers, lists and objects are the same only if they are equal. -/
theorem eq_of_same {u v : Value} (hnumber : ∀ x, u ≠ number x) (harray : ∀ items, u ≠ array items)
    (hobject : ∀ fields, u ≠ object fields) (h : same u v = true) : u = v := by
  -- Two values that are equal are of one kind.
  cases u with
  | number x => exact absurd rfl (hnumber x)
  | array items => exact absurd rfl (harray items)
  | object fields => exact absurd rfl (hobject fields)
  | null =>
    cases v with
    | null => rfl
    | _ => cases h
  | boolean b =>
    cases v with
    | boolean c => rw [eq_of_beq h]
    | _ => cases h
  | string s =>
    cases v with
    | string t => rw [eq_of_beq h]
    | _ => cases h
  | pattern p =>
    cases v with
    | pattern q => rw [eq_of_beq h]
    | _ => cases h
  | function m =>
    cases v with
    | function n => rw [eq_of_beq h]
    | _ => cases h

mutual

/-- Equality goes on through a value in the middle.  Values with parts are taken part by part;
values of any other kind but numbers are equal only if they are one. -/
theorem same_trans : ∀ u v w : Value, same u v = true → same v w = true → same u w = true
  | array xs, v, w, h, h' => by
    cases v with
    | array ys =>
      cases w with
      | array zs => exact sameItems_trans xs ys zs h h'
      | _ => cases h'
    | _ => cases h
  | object xs, v, w, h, h' => by
    cases v with
    | object ys =>
      cases w with
      | object zs => exact sameFields_trans xs ys zs h h'
      | _ => cases h'
    | _ => cases h
  | number x, v, w, h, h' => by
    cases v with
    | number y =>
      cases w with
      | number z => exact Number.beq_trans h h'
      | _ => cases h'
    | _ => cases h
  -- Nothing lies in these values, so the first two are one.
  | null, v, w, h, h' | boolean _, v, w, h, h' | string _, v, w, h, h' | pattern _, v, w, h, h'
  | function _, v, w, h, h' => by
    obtain rfl := eq_of_same (by simp) (by simp) (by simp) h
    exact h'

theorem sameItems_trans : ∀ xs ys zs : List Value, sameItems xs ys = true →
    sameItems ys zs = true → sameItems xs zs = true
  | [], [], zs, _, h' => h'
  | [], _ :: _, _, h, _ | _ :: _, [], _, h, _ => nomatch h
  | _ :: _, _ :: _, [], _, h' => nomatch h'
  | x :: xs, y :: ys, z :: zs, h, h' => by
    rw [sameItems, Bool.and_eq_true] at h h' ⊢
    exact ⟨same_trans x y z h.1 h'.1, sameItems_trans xs ys zs h.2 h'.2⟩

theorem sameFields_trans : ∀ xs ys zs : List (String × Value), sameFields xs ys = true →
    sameFields ys zs = true → sameFields xs zs = true
  | [], [], zs, _, h' => h'
  | [], _ :: _, _, h, _ | _ :: _, [], _, h, _ => nomatch h
  | _ :: _, _ :: _, [], _, h' => nomatch h'
  | (k, x) :: xs, (l, y) :: ys, (m, z) :: zs, h, h' => by
    rw [sameFields, Bool.and_eq_true, Bool.and_eq_true, beq_iff_eq] at h h' ⊢
    obtain ⟨⟨rfl, hx⟩, hxs⟩ := h
    obtain ⟨⟨rfl, hy⟩, hys⟩ := h'
    exact ⟨⟨rfl, same_trans x y z hx hy⟩, sameFields_trans xs ys zs hxs hys⟩

end

/-! ## Values equal to themselves -/

/-- What lies in a list and is not the list lies in an item. -/
theorem within_array_iff {a : Value} {items : List Value} (h : a ≠ array items) :
    Within a (array items) ↔ ∃ item ∈ items, Within a item := by
  constructor
  · intro hwithin
    cases hwithin with
    | self => exact absurd rfl h
    | item hitem hwithin => exact ⟨_, hitem, hwithin⟩
  · rintro ⟨item, hitem, hwithin⟩
    exact .item hitem hwithin

/-- What lies in an object and is not the object lies under one of the names. -/
theorem within_object_iff {a : Value} {fields : List (String × Value)} (h : a ≠ object fields) :
    Within a (object fields) ↔ ∃ m ∈ fields, Within a m.2 := by
  constructor
  · intro hwithin
    cases hwithin with
    | self => exact absurd rfl h
    | member hmember hwithin => exact ⟨_, hmember, hwithin⟩
  · rintro ⟨m, hm, hwithin⟩
    exact .member hm hwithin

mutual

/-- A value is equal to itself exactly if there is no undefined number in it. -/
theorem same_self_iff : ∀ v : Value, same v v = true ↔ ¬Within (number Number.nan) v
  | array items => by
    rw [same, sameItems_self_iff items, within_array_iff (by simp)]
    simp
  | object fields => by
    rw [same, sameFields_self_iff fields, within_object_iff (by simp)]
    simp
  | number x => by
    rw [same, Number.beq_self_iff, not_iff_not]
    constructor
    · rintro rfl
      exact .self
    · intro h
      cases h
      rfl
  | null | boolean _ | string _ | pattern _ | function _ => by
    refine iff_of_true (by simp [same]) fun h => ?_
    cases h

/-- A list is equal to itself item by item. -/
theorem sameItems_self_iff : ∀ items : List Value,
    sameItems items items = true ↔ ∀ item ∈ items, ¬Within (number Number.nan) item
  | [] => by simp [sameItems]
  | item :: rest => by
    rw [sameItems, Bool.and_eq_true, same_self_iff item, sameItems_self_iff rest,
      List.forall_mem_cons]

/-- An object is equal to itself entry by entry; the names always agree. -/
theorem sameFields_self_iff : ∀ fields : List (String × Value),
    sameFields fields fields = true ↔ ∀ m ∈ fields, ¬Within (number Number.nan) m.2
  | [] => by simp [sameFields]
  | (name, v) :: rest => by
    rw [sameFields, Bool.and_eq_true, Bool.and_eq_true, same_self_iff v, sameFields_self_iff rest,
      List.forall_mem_cons]
    simp

end

/-! ## Display texts -/

theorem isNull_eq_of_same {u v : Value} (h : same u v = true) : u.isNull = v.isNull := by
  cases u <;> cases v <;> first | rfl | cases h

mutual

/-- Equal values have the same display text. -/
theorem display_eq_of_same : ∀ u v : Value, same u v = true → u.display = v.display
  | array xs, v, h => by
    cases v with
    | array ys => rw [display, display, displayItems_eq_of_same xs ys h]
    | _ => cases h
  | number x, v, h => by
    cases v with
    | number y => exact Number.display_eq_of_beq h
    | _ => cases h
  | object xs, v, h => by
    cases v with
    | object ys => rfl
    | _ => cases h
  | null, v, h | boolean _, v, h | string _, v, h | pattern _, v, h | function _, v, h => by
    rw [eq_of_same (by simp) (by simp) (by simp) h]

/-- The items of equal lists are displayed alike. -/
theorem displayItems_eq_of_same : ∀ xs ys : List Value, sameItems xs ys = true →
    displayItems xs = displayItems ys
  | [], [], _ => rfl
  | [], _ :: _, h | _ :: _, [], h => nomatch h
  | x :: xs, y :: ys, h => by
    rw [sameItems, Bool.and_eq_true] at h
    rw [displayItems, displayItems, isNull_eq_of_same h.1, display_eq_of_same x y h.1,
      displayItems_eq_of_same xs ys h.2]

end

/-! ## Objects -/

/-- Nothing is found under a name on both sides, or equal values are. -/
abbrev SameFound : Option Value → Option Value → Prop := Option.Rel fun u v => same u v = true

/-- Objects are the same exactly if the same is found under every name. -/
theorem sameFields_iff {xs ys : List (String × Value)} (hxs : Ascending xs) (hys : Ascending ys) :
    sameFields xs ys = true ↔ ∀ name, SameFound (lookup? name xs) (lookup? name ys) := by
  induction xs generalizing ys with
  | nil =>
    cases ys with
    | nil => exact iff_of_true rfl fun _ => .none
    | cons n ys =>
      refine iff_of_false (fun h => nomatch h) fun h => ?_
      -- The first name of the other object is found there and not here.
      have hfirst := h n.1
      simp [lookup?, SameFound] at hfirst
  | cons m xs ih =>
    cases ys with
    | nil =>
      refine iff_of_false (fun h => nomatch h) fun h => ?_
      have hfirst := h m.1
      simp [lookup?, SameFound] at hfirst
    | cons n ys =>
      obtain ⟨k, x⟩ := m
      obtain ⟨l, y⟩ := n
      obtain ⟨hx, hxs'⟩ := List.pairwise_cons.mp hxs
      obtain ⟨hy, hys'⟩ := List.pairwise_cons.mp hys
      rw [sameFields, Bool.and_eq_true, Bool.and_eq_true, beq_iff_eq, ih hxs' hys']
      constructor
      · rintro ⟨⟨rfl, hxy⟩, hrest⟩ name
        by_cases hname : k = name
        · simpa [lookup?, hname, SameFound] using hxy
        · simpa [lookup?, hname] using hrest name
      · intro h
        -- The first name of one object is found in the other, so that neither precedes the other.
        have hkl : k = l := by
          rcases Std.lt_trichotomy k l with hlt | heq | hlt
          · have hfirst := h k
            rw [Fields.lookup?_cons_eq_none_of_lt hlt hy] at hfirst
            simp [lookup?, SameFound] at hfirst
          · exact heq
          · have hfirst := h l
            rw [Fields.lookup?_cons_eq_none_of_lt hlt hx] at hfirst
            simp [lookup?, SameFound] at hfirst
        subst hkl
        -- Behind the first entry the names are greater, so that this name is found no second time.
        refine ⟨⟨rfl, ?_⟩, fun name => ?_⟩
        · simpa [lookup?, SameFound] using h k
        · by_cases hname : k = name
          · subst hname
            rw [Fields.lookup?_eq_none_of_lt hx, Fields.lookup?_eq_none_of_lt hy]
            exact .none
          · simpa [lookup?, hname] using h name

/-! ## Equality -/

/-- Equality is symmetric and transitive, and exactly the values without an undefined number in them
are equal to themselves.  Two objects, filled entry by entry, are equal exactly if under every name
the values written last are, or no value is; so the order of entries with different names makes
no difference, and neither does it for a value that has the objects in it.  Equal values have the
same display text, and every object has the same member under them. -/
theorem same_partial_equivalence :
    (∀ u v : Value, same u v = true → same v u = true) ∧
      (∀ u v w : Value, same u v = true → same v w = true → same u w = true) ∧
      (∀ v : Value, same v v = true ↔ ¬Within (number Number.nan) v) ∧
      (∀ es es' : List (String × Value),
        same (object (Fields.ofList es)) (object (Fields.ofList es')) = true ↔
          ∀ name, SameFound (lookup? name es.reverse) (lookup? name es'.reverse)) ∧
      (∀ es es' : List (String × Value), es.Perm es' → (es.map Prod.fst).Nodup →
        object (Fields.ofList es) = object (Fields.ofList es')) ∧
      ∀ u v : Value, same u v = true → u.display = v.display ∧
        ∀ fields, (object fields).getMember u = (object fields).getMember v := by
  refine ⟨fun u v h => ?_, same_trans, same_self_iff, fun es es' => ?_, fun es es' hperm hes => ?_,
    fun u v h => ?_⟩
  · rw [same_comm]
    exact h
  · rw [same, sameFields_iff (Fields.ascending_ofList es) (Fields.ascending_ofList es')]
    simp only [Fields.lookup?_ofList]
  · rw [Fields.ofList_eq_of_perm hperm hes]
  · have hdisplay := display_eq_of_same u v h
    refine ⟨hdisplay, fun fields => ?_⟩
    rw [getMember, getMember, hdisplay]

end

/-- The zeros are equal in lists too, and are displayed alike; an undefined number in an object
keeps it from being equal to itself; and an object does not show what was written into it first. -/
theorem same_partial_equivalence_nested :
    (array [number 0]).display = (array [number (-0)]).display ∧
      same (object [("a", number Number.nan)]) (object [("a", number Number.nan)]) = false ∧
      object (Fields.ofList [("b", null), ("a", boolean true)]) =
        object (Fields.ofList [("a", boolean true), ("b", null)]) := by
  obtain ⟨-, -, hself, -, horder, hequal⟩ := same_partial_equivalence
  have hzeros : same (array [number 0]) (array [number (-0)]) = true := by decide
  refine ⟨(hequal _ _ hzeros).1, ?_, horder _ _ (.swap ..) (by decide)⟩
  rw [Bool.eq_false_iff, Ne, hself, not_not]
  exact .member List.mem_cons_self .self

end Value

end Brace
