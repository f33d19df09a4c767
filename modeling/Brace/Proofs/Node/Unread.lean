/-
# Members that are not read

An object where a record is read may have members beside the parts of the record, and they may be
anything: with one more of them (`Node.Adds`) the same tree is read.  Together with
`Node.toJson_eq_canon` this says what is left of a stored tree that is read and written again
(`Node.canonical_of_stored`).
-/
import Brace.Proofs.Node.Normalized
import Mathlib.Logic.Relation

namespace Brace.Node

/-- How many items of a list stand before the parts of the record: the kind of a node. -/
def Role.lead : Role → Nat
  | .node _ => 1
  | _ => 0

/-- One member is added to an object of a stored tree, beside the kind and the parts of the record
that is read there.  Nothing is added to components or to a value that is kept as it is. -/
inductive Adds : Role → Json → Json → Prop where
  /-- The object at the place itself has a new member. -/
  | field {place : Role} {fields : List (String × Json)} {l : Layout (.object fields)}
      {name : String} (x : Json) :
      layout? place (.object fields) = some l → name ∉ l.names →
      (∀ nested, place = .node nested → name ≠ "type") →
      Adds place (.object fields) (.object (Fields.insert name x fields))
  /-- The new member is inside a part of an object. -/
  | member {place : Role} {fields : List (String × Json)} {l : Layout (.object fields)}
      {name : String} {x x' : Json} :
      layout? place (.object fields) = some l → name ∈ l.names →
      Fields.lookup? name fields = some x → Adds (l.part name) x x' →
      Adds place (.object fields) (.object (Fields.insert name x' fields))
  /-- The new member is inside a part of a record that is a list. -/
  | position {place : Role} {items : List Json} {l : Layout (.array items)} {i : Nat}
      {name : String} {x x' : Json} :
      layout? place (.array items) = some l → l.names[i]? = some name →
      items[i + place.lead]? = some x → Adds (l.part name) x x' →
      Adds place (.array items) (.array (items.set (i + place.lead) x'))
  /-- The new member is inside an item of a list. -/
  | item {role : Role} {items : List Json} {i : Nat} {x x' : Json} :
      items[i]? = some x → Adds role x x' →
      Adds (.list role) (.array items) (.array (items.set i x'))

/-! ## What is read after an addition -/

variable {place : Role}

/-- An object where a record is read gives its members and its kind. -/
theorem layout?_object_inv {fields : List (String × Json)} {l : Layout (.object fields)}
    (h : layout? place (.object fields) = some l) :
    l.members = fields ∧ ∀ nested, place = .node nested →
      Fields.lookup? "type" fields >>= kindOf? nested = l.kind? := by
  rcases layout?_cases h with
    ⟨nested, s, names, rfl, hs, -, rfl⟩ | ⟨r, rfl, hr, rfl⟩ | ⟨r, rfl, hr, rfl⟩
  · obtain ⟨kind, hkind, hs⟩ := Option.bind_eq_some_iff.mp hs
    cases hs
    refine ⟨rfl, fun nested' hplace => ?_⟩
    cases hplace
    exact hkind
  · cases hr
    exact ⟨rfl, nofun⟩
  · cases hr
    exact ⟨rfl, nofun⟩

/-- A record that is a list is a record of the same names with another item. -/
theorem record?_set {names : List String} {items : List Json} {r : Record (.array items)}
    (h : record? names (.array items) = some r) (i : Nat) (x : Json) :
    r.members = names.zip items ∧ ∃ r', record? names (.array (items.set i x)) = some r' ∧
      r'.members = names.zip (items.set i x) := by
  rw [record?] at h
  split at h
  · next hlength =>
    cases h
    exact ⟨rfl, _, by rw [record?, if_pos (by rwa [List.length_set])], rfl⟩
  · cases h

/-- A list where a record is read is laid out in the same way with another item in a part. -/
theorem layout?_set {items : List Json} {l : Layout (.array items)}
    (h : layout? place (.array items) = some l) (i : Nat) (x : Json) :
    l.members = l.names.zip (items.drop place.lead) ∧
      ∃ l', layout? place (.array (items.set (i + place.lead) x)) = some l' ∧
        l'.kind? = l.kind? ∧
        l'.members = l.names.zip ((items.drop place.lead).set i x) := by
  rcases layout?_cases h with
    ⟨nested, s, names, rfl, hs, hnames, rfl⟩ | ⟨r, rfl, hr, rfl⟩ | ⟨r, rfl, hr, rfl⟩
  · -- The kind stands before the parts, so the item that is changed is not the kind.
    cases items with
    | nil => cases hs
    | cons tag items =>
      obtain ⟨kind, hkind, hs⟩ := Option.bind_eq_some_iff.mp hs
      obtain ⟨names', hnames', hs⟩ := Option.bind_eq_some_iff.mp hs
      split at hs
      · next hlength =>
        cases hs
        cases hnames'.symm.trans hnames
        refine ⟨rfl, ?_⟩
        simp [Role.lead, layout?, stored?, hkind, hnames, hlength]
      · cases hs
  -- An entry, and then a piece of text: nothing stands before their parts.
  · obtain ⟨hmembers, r', hr', hmembers'⟩ := record?_set hr i x
    refine ⟨hmembers, ⟨r', none, ["key", "value"], fun _ => .node true⟩, ?_, rfl, hmembers'⟩
    show layout? .entry (.array (items.set i x)) = _
    rw [layout?, hr']
    rfl
  · obtain ⟨hmembers, r', hr', hmembers'⟩ := record?_set hr i x
    refine ⟨hmembers, ⟨r', some "String", ["value"], fun _ => .data⟩, ?_, rfl, hmembers'⟩
    show layout? .quasi (.array (items.set i x)) = _
    rw [layout?, hr']
    rfl

/-- With one item alike, all parts of a record that is a list are alike. -/
theorem alikePart_zip_set {part : String → Role} {names : List String} {items : List Json} {i : Nat}
    {name : String} {x x' : Json} (hname : names[i]? = some name) (hx : items[i]? = some x)
    (h : Alike (part name) x x') (other : String) :
    AlikePart (part other) other (Fields.lookup? other (names.zip items))
      (Fields.lookup? other (names.zip (items.set i x'))) := by
  -- Names and items are gone through together, to the one that is changed.
  induction names generalizing items i with
  | nil => cases hname
  | cons key names ih =>
    cases items with
    | nil => cases hx
    | cons y items =>
      cases i with
      | zero =>
        cases hname
        cases hx
        rw [List.set_cons_zero, List.zip_cons_cons, List.zip_cons_cons, Fields.lookup?,
          Fields.lookup?]
        split
        · next hkey => exact hkey ▸ h
        · exact AlikePart.refl _ _ _
      | succ i =>
        rw [List.set_cons_succ, List.zip_cons_cons, List.zip_cons_cons, Fields.lookup?,
          Fields.lookup?]
        split
        · exact Alike.refl _ _
        · exact ih hname hx

/-- A list with one item changed is related to the list, if the new item is related to the old one.
-/
theorem forall₂_set {R : Json → Json → Prop} (hrefl : ∀ x, R x x) {items : List Json} {i : Nat}
    {x x' : Json} (hx : items[i]? = some x) (h : R x x') :
    List.Forall₂ R items (items.set i x') := by
  induction items generalizing i with
  | nil => cases hx
  | cons y items ih =>
    cases i with
    | zero =>
      cases hx
      exact .cons h (List.forall₂_same.mpr fun z _ => hrefl z)
    | succ i => exact .cons (hrefl y) (ih hx)

/-- What is read does not depend on a member that is added. -/
theorem Adds.alike {j j' : Json} (h : Adds place j j') : Alike place j j' := by
  -- On the way to the member that is added, all other parts stay as they are.
  induction h with
  | field x hl hname htype =>
    obtain ⟨hmembers, hkind⟩ := layout?_object_inv hl
    -- The new member is not asked for, so every part is found as before.
    refine alike_of_layout? hl (layout?_object hl fun nested hplace => ?_) rfl
      fun other hother => ?_
    · rw [Fields.lookup?_insert_of_ne (htype nested hplace)]
      exact hkind nested hplace
    · have hne := ne_of_mem_of_not_mem hother hname
      rw [hmembers, Fields.lookup?_insert_of_ne hne.symm]
      exact AlikePart.refl _ _ _
  | @member place fields l name x x' hl hname hx _ ih =>
    obtain ⟨hmembers, hkind⟩ := layout?_object_inv hl
    have htype : name ≠ "type" := fun he => type_notMem_names hl (he ▸ hname)
    refine alike_of_layout? hl (layout?_object hl fun nested hplace => ?_) rfl fun other _ => ?_
    · rw [Fields.lookup?_insert_of_ne htype]
      exact hkind nested hplace
    · rw [hmembers]
      -- The part that is changed is like the old one by induction, and the others are the same.
      by_cases hother : name = other
      · subst hother
        rw [hx, Fields.lookup?_insert_self]
        exact ih
      · rw [Fields.lookup?_insert_of_ne hother]
        exact AlikePart.refl _ _ _
  | @position place items l i name x x' hl hname hx _ ih =>
    obtain ⟨hmembers, l', hl', hkind, hmembers'⟩ := layout?_set hl i x'
    refine alike_of_layout? hl hl' hkind fun other _ => ?_
    rw [hmembers, hmembers']
    exact alikePart_zip_set hname (by rw [List.getElem?_drop, Nat.add_comm, hx]) ih other
  | item hx _ ih => exact Or.inr ⟨_, _, rfl, rfl, forall₂_set (Alike.refl _) hx ih⟩

/-- However many members are added, the same tree is read. -/
theorem ofJson?_eq_of_adds {nested : Bool} {j j' : Json}
    (h : Relation.ReflTransGen (Adds (.node nested)) j j') :
    ofJson? nested j' = ofJson? nested j := by
  induction h with
  | refl => rfl
  | tail _ hadds ih => exact hadds.alike.1.trans ih

/-! ## Reading and writing again -/

/-- What is read and written again is the canonical form of what was stored.  The canonical form is
read as the stored value is, it is its own canonical form, and members that are added beside the
parts are not read. -/
theorem canonical_of_stored :
    (∀ nested j n, j.Valid → ofJson? nested j = some n → n.toJson = canon (.node nested) j) ∧
      (∀ nested j, ofJson? nested (canon (.node nested) j) = ofJson? nested j) ∧
      (∀ place j, canon place (canon place j) = canon place j) ∧
      ∀ nested j j', Relation.ReflTransGen (Adds (.node nested)) j j' →
        ofJson? nested j' = ofJson? nested j :=
  ⟨fun _ _ _ hj h => toJson_eq_canon hj h, fun nested j => (alike_canon (.node nested) j).1,
    canon_canon, fun _ _ _ h => ofJson?_eq_of_adds h⟩

/-- A conditional with a whole number, a branch that is `null` and a member that no conditional
has. -/
theorem canonical_of_stored_conditional :
    let test (value : Json) : Json := .object [("type", .string "Numeric"), ("value", value)]
    let consequent : Json := .object [("type", .string "Null")]
    let j : Json := .object [("alternate", .null), ("consequent", consequent),
      ("test", test (.int 3)), ("type", .string "IfStatement")]
    let noted : Json := .object [("alternate", .null), ("consequent", consequent),
      ("note", .bool true), ("test", test (.int 3)), ("type", .string "IfStatement")]
    let plain : Json := .object [("consequent", consequent),
      ("test", test (.float (Number.ofInt 3))), ("type", .string "IfStatement")]
    let n : Node := conditional (number (Number.ofInt 3)) (some null) none
    ofJson? false j = some n ∧ n.toJson = plain ∧ canon (.node false) j = plain ∧
      ofJson? false plain = some n ∧ ofJson? false noted = some n := by
  intro test consequent j noted plain n
  obtain ⟨hwritten, hcanon, -, hadded⟩ := canonical_of_stored
  have hconsequent : consequent.Valid :=
    .object (List.pairwise_singleton ..) (List.forall_mem_singleton.mpr (.string _))
  have htest : (test (.int 3)).Valid := by
    refine .object (by unfold Fields.Ascending; decide) ?_
    simpa using ⟨.string _, .int (by decide) (by decide)⟩
  have hvalid : j.Valid := by
    refine .object (by unfold Fields.Ascending; decide) ?_
    simpa using ⟨.null, hconsequent, htest, .string _⟩
  have hread : ofJson? false j = some n := by
    simp [j, n, test, consequent, ofJson?_object, Fields.lookup?, kindOf?, assemble?,
      branchOfJson?, readNumber?]
  have htoJson : n.toJson = plain := by
    have hfinite : Number.isFinite (Number.ofInt 3) = true := Number.isFinite_ofInt (by decide)
    simp only [n, toJson, branchToJson, numberJson, hfinite, if_true]
    rfl
  -- The canonical form is what is written of the tree that was read.
  have hplain : canon (.node false) j = plain :=
    (hwritten false j n hvalid hread).symm.trans htoJson
  have hnoted : Adds (.node false) j noted := by
    have hlayout : layout? (.node false) j = some ⟨⟨_, _⟩, some "IfStatement", _, _⟩ := rfl
    have hunread : "note" ∉ ["test", "consequent", "alternate"] := by decide
    exact .field (.bool true) hlayout hunread (by simp)
  refine ⟨hread, htoJson, hplain, ?_, ?_⟩
  · rw [← hplain, hcanon, hread]
  · rw [hadded false j noted (.single hnoted), hread]

/-- Three trees with nothing to drop and no number in them, which are yet written otherwise than
they are stored: an operator may be stored as an object, a node as a list, and a piece of a
template without a kind. -/
theorem other_spellings_not_written :
    let nothing : Json := .object [("type", .string "Null")]
    let minus (operator : Json) : Json := .object
      [("argument", nothing), ("operator", operator), ("type", .string "UnaryExpression")]
    let asObject : Json := minus (.object [("-", .null)])
    let asList : Json := .array [.string "Boolean", .bool true]
    let text (quasi : Json) : Json := .object [("expressions", .array []),
      ("quasis", .array [quasi]), ("type", .string "TemplateLiteral")]
    let untagged : Json := text (.object [("value", .string "a")])
    (asObject.Valid ∧ ofJson? false asObject = some (unary .minus null) ∧
      (unary .minus null).toJson = minus (.string "-") ∧
      (unary .minus null).toJson ≠ asObject) ∧
    (asList.Valid ∧ ofJson? false asList = some (boolean true) ∧
      (boolean true).toJson = .object [("type", .string "Boolean"), ("value", .bool true)] ∧
      (boolean true).toJson ≠ asList) ∧
    (untagged.Valid ∧ ofJson? false untagged = some (template ["a"] []) ∧
      (template ["a"] []).toJson =
        text (.object [("type", .string "String"), ("value", .string "a")]) ∧
      (template ["a"] []).toJson ≠ untagged) := by
  intro nothing minus asObject asList text untagged
  have htype : nothing.Valid :=
    .object (List.pairwise_singleton ..) (List.forall_mem_singleton.mpr (.string _))
  -- In each case the stored tree is valid and read, and what is written of it is another value.
  refine ⟨?operator, ?node, ?piece⟩
  case operator =>
    have hwritten : (unary .minus null).toJson = minus (.string "-") := by
      simp only [toJson]
      rfl
    refine ⟨?_, ?_, hwritten, ?_⟩
    · have hoperator : (Json.object [("-", .null)]).Valid :=
        .object (List.pairwise_singleton ..) (List.forall_mem_singleton.mpr .null)
      refine .object (by unfold Fields.Ascending; decide) ?_
      simpa using ⟨htype, hoperator, .string _⟩
    · have hminus : UnaryOp.ofSpelling? "-" = some .minus := UnaryOp.ofSpelling?_spelling .minus
      simp [asObject, minus, nothing, ofJson?_object, Fields.lookup?, kindOf?, assemble?,
        readSpelling?, hminus]
    · rw [hwritten]
      simp [asObject, minus]
  case node =>
    have hwritten : (boolean true).toJson =
        .object [("type", .string "Boolean"), ("value", .bool true)] := by
      simp only [toJson]
      rfl
    refine ⟨?_, ?_, hwritten, ?_⟩
    · refine .array ?_
      simpa using ⟨.string _, .bool _⟩
    · rw [ofJson?]
      rfl
    · rw [hwritten]
      simp [asList]
  case piece =>
    have hquasi : (Json.object [("value", .string "a")]).Valid :=
      .object (List.pairwise_singleton ..) (List.forall_mem_singleton.mpr (.string _))
    have hwritten : (template ["a"] []).toJson =
        text (.object [("type", .string "String"), ("value", .string "a")]) := by
      simp only [toJson, listToJson]
      rfl
    refine ⟨?_, ?_, hwritten, ?_⟩
    · refine .object (by unfold Fields.Ascending; decide) ?_
      simpa using ⟨.array (List.forall_mem_nil _), .array (by simpa using hquasi), .string _⟩
    · simp [untagged, text, ofJson?_object, Fields.lookup?, kindOf?, assemble?, listOfJson?,
        itemsOfJson?, readQuasis?, readQuasi?, record?, readString?]
    · rw [hwritten]
      simp [untagged, text]

end Brace.Node
