/-
# Values that survive JSON

The JSON form of a value keeps it as long as there is no function, no regular expression and no
infinite or undefined number anywhere in it (`Lossless`).  Exactly these values come back unchanged
from their JSON form, and a JSON value comes back with its whole numbers as doubles, since there is
one kind of number among values.  So equality of such values is equality of their JSON forms.
All three are put together in `json_roundtrip`.
-/
import Brace.Regex.Builtin
import Brace.Value.Json
import Brace.Proofs.Node.Canonical

namespace Brace

/-! ## What is in a value -/

section

variable [Regex.Engine]

namespace Value

/-- A value is another one or somewhere in it. -/
inductive Within (a : Value) : Value → Prop where
  /-- The value itself. -/
  | self : Within a a
  /-- What is in an item of a list. -/
  | item {item : Value} {items : List Value} (hitem : item ∈ items) (h : Within a item) :
      Within a (array items)
  /-- What is in a member of an object. -/
  | member {name : String} {member : Value} {fields : List (String × Value)}
      (hmember : (name, member) ∈ fields) (h : Within a member) : Within a (object fields)

/-- JSON has a value like this one: functions and regular expressions are none, and a number is one
if it is finite. -/
def HasForm : Value → Prop
  | number x => Number.isFinite x = true
  | pattern _ | function _ => False
  | null | boolean _ | string _ | array _ | object _ => True

/-- There is nothing in a value that JSON does not have. -/
def Lossless (v : Value) : Prop := ∀ a, Within a v → a.HasForm

/-- A list keeps its JSON form if its items do. -/
theorem lossless_array {items : List Value} :
    Lossless (array items) ↔ ∀ item ∈ items, Lossless item := by
  constructor
  · intro h item hitem a ha
    exact h a (.item hitem ha)
  · intro h a ha
    cases ha with
    | self => exact trivial
    | item hitem ha => exact h _ hitem a ha

/-- An object keeps it if what stands under its names does. -/
theorem lossless_object {fields : List (String × Value)} :
    Lossless (object fields) ↔ ∀ m ∈ fields, Lossless m.2 := by
  constructor
  · intro h m hm a ha
    exact h a (.member hm ha)
  · intro h a ha
    cases ha with
    | self => exact trivial
    | member hm ha => exact h _ hm a ha

/-- A value that is neither a list nor an object has nothing else in it. -/
theorem lossless_iff_hasForm {v : Value} (harray : ∀ items, v ≠ array items)
    (hobject : ∀ fields, v ≠ object fields) : Lossless v ↔ v.HasForm := by
  constructor
  · exact fun h => h v .self
  · intro h a ha
    cases ha with
    | self => exact h
    | item => exact absurd rfl (harray _)
    | member => exact absurd rfl (hobject _)

/-! ## From values to JSON and back -/

mutual

/-- A value comes back from its JSON form exactly if nothing in it is lost. -/
theorem ofJson_toJson_iff : ∀ v : Value, ofJson v.toJson = v ↔ Lossless v
  | null | boolean _ | string _ | pattern _ | function _ => by
    rw [lossless_iff_hasForm (by simp) (by simp)]
    simp [toJson, ofJson, HasForm]
  | number x => by
    rw [lossless_iff_hasForm (by simp) (by simp), HasForm, toJson]
    split
    · next h => simp [ofJson, h]
    · next h => simp [ofJson, h]
  | array items => by
    rw [lossless_array, toJson, ofJson, array.injEq, itemsOfJson_itemsToJson_iff items]
  | object fields => by
    rw [lossless_object, toJson, ofJson, object.injEq, fieldsOfJson_fieldsToJson_iff fields]

/-- The items come back unchanged exactly if each of them does. -/
theorem itemsOfJson_itemsToJson_iff : ∀ items : List Value,
    itemsOfJson (itemsToJson items) = items ↔ ∀ item ∈ items, Lossless item
  | [] => by simp [itemsToJson, itemsOfJson]
  | item :: rest => by
    rw [itemsToJson, itemsOfJson, List.cons.injEq, ofJson_toJson_iff item,
      itemsOfJson_itemsToJson_iff rest, List.forall_mem_cons]

/-- The entries come back unchanged exactly if the value of each does; the names are kept in any
case. -/
theorem fieldsOfJson_fieldsToJson_iff : ∀ fields : List (String × Value),
    fieldsOfJson (fieldsToJson fields) = fields ↔ ∀ m ∈ fields, Lossless m.2
  | [] => by simp [fieldsToJson, fieldsOfJson]
  | (name, v) :: rest => by
    rw [fieldsToJson, fieldsOfJson, List.cons.injEq, Prod.mk.injEq, ofJson_toJson_iff v,
      fieldsOfJson_fieldsToJson_iff rest, List.forall_mem_cons]
    simp

end

end Value

end

/-! ## From JSON to values and back -/

namespace Json

mutual

/-- A JSON value with every whole number as the nearest double. -/
def floating : Json → Json
  | int n => float (Number.ofInt n)
  | array items => array (floatingItems items)
  | object fields => object (floatingFields fields)
  | null => null
  | bool b => bool b
  | float x => float x
  | string s => string s

/-- The items of a list with every whole number as the nearest double. -/
def floatingItems : List Json → List Json
  | [] => []
  | j :: rest => floating j :: floatingItems rest

/-- The members of an object with every whole number as the nearest double. -/
def floatingFields : List (String × Json) → List (String × Json)
  | [] => []
  | (name, j) :: rest => (name, floating j) :: floatingFields rest

end

end Json

namespace Value

section

variable [Regex.Engine]

mutual

/-- A JSON value comes back with its whole numbers as doubles. -/
theorem toJson_ofJson : ∀ j : Json, j.Valid → (ofJson j).toJson = j.floating
  | .null, _ | .bool _, _ | .string _, _ => rfl
  | .int n, h => by
    cases h with
    | int hlow hhigh =>
      have hfinite := Number.isFinite_ofInt (n := n) (by omega)
      rw [ofJson, toJson, if_pos hfinite, Json.floating]
  | .float x, h => by
    cases h with
    | float hfinite => rw [ofJson, toJson, if_pos hfinite, Json.floating]
  | .array items, h => by
    cases h with
    | array hitems => rw [ofJson, toJson, Json.floating, itemsToJson_itemsOfJson items hitems]
  | .object fields, h => by
    cases h with
    | object _ hfields =>
      rw [ofJson, toJson, Json.floating, fieldsToJson_fieldsOfJson fields hfields]

/-- Items that are read and written again are the items with floating numbers. -/
theorem itemsToJson_itemsOfJson : ∀ items : List Json, (∀ j ∈ items, j.Valid) →
    itemsToJson (itemsOfJson items) = Json.floatingItems items
  | [], _ => rfl
  | j :: rest, h => by
    obtain ⟨hj, hrest⟩ := List.forall_mem_cons.mp h
    rw [itemsOfJson, itemsToJson, Json.floatingItems, toJson_ofJson j hj,
      itemsToJson_itemsOfJson rest hrest]

/-- So are entries, under the same names. -/
theorem fieldsToJson_fieldsOfJson : ∀ fields : List (String × Json), (∀ m ∈ fields, m.2.Valid) →
    fieldsToJson (fieldsOfJson fields) = Json.floatingFields fields
  | [], _ => rfl
  | (name, j) :: rest, h => by
    obtain ⟨hj, hrest⟩ := List.forall_mem_cons.mp h
    rw [fieldsOfJson, fieldsToJson, Json.floatingFields, toJson_ofJson j hj,
      fieldsToJson_fieldsOfJson rest hrest]

end

/-! ## Equality -/

theorem toJson_number {x : Float} (h : Lossless (number x)) : (number x).toJson = .float x :=
  if_pos (h _ .self)

mutual

/-- Values in which nothing is lost are the same exactly if their JSON forms are. -/
theorem same_toJson : ∀ v w : Value, Lossless v → Lossless w →
    v.toJson.same w.toJson = v.same w
  | array xs, w, hv, hw => by
    cases w with
    | array ys =>
      rw [toJson, toJson, Json.same, same]
      exact sameItems_itemsToJson xs ys (lossless_array.mp hv) (lossless_array.mp hw)
    | number y => rw [toJson_number hw]; rfl
    -- A pattern or a function is not lossless, and values of two kinds are unequal in both forms.
    | pattern | function => exact (hw _ .self).elim
    | null | boolean | string | object => rfl
  | object xs, w, hv, hw => by
    cases w with
    | object ys =>
      rw [toJson, toJson, Json.same, same]
      exact sameFields_fieldsToJson xs ys (lossless_object.mp hv) (lossless_object.mp hw)
    | number y => rw [toJson_number hw]; rfl
    | pattern | function => exact (hw _ .self).elim
    | null | boolean | string | array => rfl
  | number x, w, hv, hw => by
    -- A number that is kept is written as a number, and not as `null`.
    rw [toJson_number hv]
    cases w with
    | number y => rw [toJson_number hw]; rfl
    | pattern | function => exact (hw _ .self).elim
    | null | boolean | string | array | object => rfl
  | null, w, _, hw | boolean _, w, _, hw | string _, w, _, hw => by
    cases w with
    | number y => rw [toJson_number hw]; rfl
    | pattern | function => exact (hw _ .self).elim
    | null | boolean | string | array | object => rfl
  | pattern _, _, hv, _ | function _, _, hv, _ => (hv _ .self).elim

/-- Items are compared as their JSON forms are. -/
theorem sameItems_itemsToJson : ∀ xs ys : List Value, (∀ x ∈ xs, Lossless x) →
    (∀ y ∈ ys, Lossless y) → Json.sameItems (itemsToJson xs) (itemsToJson ys) = sameItems xs ys
  | [], [], _, _ | [], _ :: _, _, _ | _ :: _, [], _, _ => rfl
  | x :: xs, y :: ys, hxs, hys => by
    obtain ⟨hx, hxs⟩ := List.forall_mem_cons.mp hxs
    obtain ⟨hy, hys⟩ := List.forall_mem_cons.mp hys
    rw [itemsToJson, itemsToJson, Json.sameItems, sameItems, same_toJson x y hx hy,
      sameItems_itemsToJson xs ys hxs hys]

theorem sameFields_fieldsToJson : ∀ xs ys : List (String × Value), (∀ m ∈ xs, Lossless m.2) →
    (∀ m ∈ ys, Lossless m.2) →
    Json.sameFields (fieldsToJson xs) (fieldsToJson ys) = sameFields xs ys
  | [], [], _, _ | [], _ :: _, _, _ | _ :: _, [], _, _ => rfl
  | (k, x) :: xs, (l, y) :: ys, hxs, hys => by
    obtain ⟨hx, hxs⟩ := List.forall_mem_cons.mp hxs
    obtain ⟨hy, hys⟩ := List.forall_mem_cons.mp hys
    rw [fieldsToJson, fieldsToJson, Json.sameFields, sameFields, same_toJson x y hx hy,
      sameFields_fieldsToJson xs ys hxs hys]

end

/-- Exactly the values in which nothing is lost come back from JSON, a JSON value comes back with
its whole numbers as doubles, and values in which nothing is lost are the same exactly if their
JSON forms are. -/
theorem json_roundtrip :
    (∀ v : Value, ofJson v.toJson = v ↔ Lossless v) ∧
      (∀ j : Json, j.Valid → (ofJson j).toJson = j.floating) ∧
      ∀ v w : Value, Lossless v → Lossless w →
        (v.same w = true ↔ v.toJson.same w.toJson = true) :=
  ⟨ofJson_toJson_iff, toJson_ofJson, fun v w hv hw => by rw [same_toJson v w hv hw]⟩

end

/-- A function in a list is lost, a whole number in an object becomes a double, and the JSON forms
of the two zeros are the same, as the zeros are. -/
theorem json_roundtrip_nested :
    ofJson (array [function 0]).toJson ≠ array [function 0] ∧
      (ofJson (.object [("a", .array [.int 1])])).toJson =
        .object [("a", .array [.float (Number.ofNat 1)])] ∧
      (number (Float.ofBits 0)).toJson.same (number (-Float.ofBits 0)).toJson = true := by
  obtain ⟨hvalue, hjson, hsame⟩ := json_roundtrip
  have hfinite : Number.isFinite (Float.ofBits 0) = true ∧
      Number.isFinite (-Float.ofBits 0) = true := by decide
  have hlossless {x : Float} (hx : Number.isFinite x = true) : Lossless (number x) :=
    (lossless_iff_hasForm (by simp) (by simp)).mpr hx
  have hvalid : (Json.object [("a", .array [.int 1])]).Valid := by
    refine .object (List.pairwise_singleton ..) ?_
    rw [List.forall_mem_singleton]
    refine .array ?_
    rw [List.forall_mem_singleton]
    exact .int (by decide) (by decide)
  -- A list with a function comes back as another value; a list under a name comes back with its
  -- whole number as a double; both zeros are equal.
  refine ⟨fun heq => ?_, (hjson _ hvalid).trans rfl, ?_⟩
  · exact (hvalue _).mp heq (function 0) (.item List.mem_cons_self .self)
  · exact (hsame _ _ (hlossless hfinite.1) (hlossless hfinite.2)).mp rfl

end Value

end Brace
