/-
# The canonical form of a stored tree

A tree is stored in many ways: with members that are not read, as lists without names, with whole
numbers, with branches that are `null`.  `Node.canon` picks one of them.  It goes through the places
of a stored tree where something is read (`Role`), keeps the parts that are read there, and leaves
alone what is not part of the tree.
-/
import Brace.Proofs.Node.Reading
import Brace.Proofs.Number.Whole

namespace Brace

/-- A JSON value as it is held in memory: a double is a finite number, a whole number has 64 bits,
and an object is a map. -/
inductive Json.Valid : Json → Prop where
  /-- The value `null`. -/
  | null : Valid .null
  /-- A truth value. -/
  | bool (b : Bool) : Valid (.bool b)
  /-- A whole number, with or without a sign. -/
  | int {n : Int} : -2 ^ 63 ≤ n → n < 2 ^ 64 → Valid (.int n)
  /-- A double. -/
  | float {x : Float} : Number.isFinite x = true → Valid (.float x)
  /-- A text. -/
  | string (s : String) : Valid (.string s)
  /-- A list. -/
  | array {items : List Json} : (∀ x ∈ items, Valid x) → Valid (.array items)
  /-- A map. -/
  | object {fields : List (String × Json)} :
      Fields.Ascending fields → (∀ m ∈ fields, Valid m.2) → Valid (.object fields)

theorem Json.Valid.of_mem {items : List Json} (h : Valid (.array items)) {x : Json}
    (hx : x ∈ items) : x.Valid := by
  cases h with
  | array hitems => exact hitems x hx

/-! ## Look-ups among selected members -/

/-- The members with the given names that are there. -/
def select (names : List String) (part : String → Option Json) : List (String × Json) :=
  names.filterMap fun name => (part name).map (name, ·)

/-- Among selected members those are found that have been asked for. -/
theorem lookup?_select (name : String) (names : List String) (part : String → Option Json) :
    Fields.lookup? name (select names part) = if name ∈ names then part name else none := by
  induction names with
  | nil => rfl
  | cons key names ih =>
    have hcons : select (key :: names) part =
        ((part key).map (key, ·)).toList ++ select names part := by
      unfold select
      rw [List.filterMap_cons]
      cases part key <;> rfl
    rw [hcons, Fields.lookup?_append, ih]
    by_cases hk : key = name
    · subst hk
      cases part key <;> simp [Fields.lookup?]
    · cases part key <;> simp [Fields.lookup?, hk, Ne.symm hk]

theorem select_congr {names : List String} {part part' : String → Option Json}
    (h : ∀ name ∈ names, part name = part' name) : select names part = select names part' :=
  List.filterMap_congr fun name hname => by rw [h name hname]

/-- A selected member is found in the object that is made of it. -/
theorem lookup?_ofList_select {names : List String} {part : String → Option Json}
    {first : List (String × Json)} {name : String} (hname : name ∈ names)
    (hfirst : Fields.lookup? name first.reverse = none) :
    Fields.lookup? name (Fields.ofList (first ++ select names part)) = part name := by
  have hreverse : (select names part).reverse = select names.reverse part :=
    List.filterMap_reverse.symm
  rw [Fields.lookup?_ofList, List.reverse_append, Fields.lookup?_append, hreverse, lookup?_select,
    if_pos (List.mem_reverse.mpr hname), hfirst, Option.or_none]

namespace Node

/-! ## The places of a stored tree -/

/-- What is read at a place of a stored tree. -/
inductive Role where
  /-- A node; only the one at the top is not nested. -/
  | node (nested : Bool)
  /-- An entry of an object literal. -/
  | entry
  /-- A piece of the text of a template. -/
  | quasi
  /-- A list. -/
  | list (item : Role)
  /-- A number. -/
  | number
  /-- An operator. -/
  | operator
  /-- A value that is kept as it is. -/
  | data
  deriving DecidableEq, Repr

/-- What the parts of a kind are. -/
def role (kind name : String) : Role :=
  match name with
  | "value" => if kind = "Numeric" then .number else .data
  | "operator" => .operator
  | "argument" | "left" | "right" | "callee" | "object" | "property" | "test" | "consequent"
  | "alternate" => .node true
  | "arguments" | "elements" | "expressions" | "body" => .list (.node true)
  | "properties" => .list .entry
  | "quasis" => .list .quasi
  | _ => .data

/-- A record with the parts that it may have. -/
structure Layout (j : Json) extends Record j where
  /-- The kind, if there is one. -/
  kind? : Option String
  /-- The names of the parts. -/
  names : List String
  /-- What the parts are. -/
  part : String → Role

/-- How the record at a place is laid out; components are none. -/
def layout? (place : Role) (j : Json) : Option (Layout j) :=
  match place with
  | .node nested => do
    let s ← stored? nested j
    let names ← partNames? s.kind
    pure ⟨s.toRecord, some s.kind, names, role s.kind⟩
  | .entry => do pure ⟨← record? ["key", "value"] j, none, ["key", "value"], fun _ => .node true⟩
  | .quasi => do pure ⟨← record? ["value"] j, some "String", ["value"], fun _ => .data⟩
  | _ => none

/-- The member for the kind. -/
def Layout.tag {j : Json} (l : Layout j) : List (String × Json) :=
  l.kind?.toList.map fun kind => ("type", .string kind)

/-- The parts that may be missing: the branches of a conditional. -/
def IsBranch (name : String) : Prop := name = "consequent" ∨ name = "alternate"

instance (name : String) : Decidable (IsBranch name) := inferInstanceAs (Decidable (_ ∨ _))

/-- Whether a part counts as missing: a branch that is `null`. -/
def isMissing (name : String) : Json → Bool
  | .null => IsBranch name
  | _ => false

/-! ## The canonical form -/

/-- The canonical form of what is stored at a place.  A record keeps its kind, by name, and its
parts under their names, without branches that are `null`; a whole number where a number is read
becomes a double, and an operator its spelling.  Components and everything that is not read stay as
they are. -/
def canon (place : Role) (j : Json) : Json :=
  match layout? place j with
  | some l =>
    Json.ofMembers (l.tag ++ select l.names fun name => l.part? name >>= fun ⟨x, _⟩ =>
      if isMissing name x then none else some (canon (l.part name) x))
  | none =>
    match place, j with
    | .node nested, j =>
      match stored? nested j with
      | some s => .object (Fields.insert "type" (.string s.kind) s.members)
      | none => j
    | .list item, .array items => .array (items.attach.map fun x => canon item x.1)
    | .number, .int n => .float (Number.ofInt n)
    | .operator, j => (readSpelling? j).elim j .string
    | _, j => j
termination_by sizeOf j
decreasing_by
  · assumption
  · exact sizeOf_lt_of_mem_array x.2

variable {place : Role} {j : Json}

/-- The canonical form of a part, if the part is not missing. -/
def Layout.canonPart (l : Layout j) (name : String) : Option Json :=
  Fields.lookup? name l.members >>= fun x =>
    if isMissing name x then none else some (canon (l.part name) x)

/-- The members of the canonical form of a record. -/
def Layout.canonMembers (l : Layout j) : List (String × Json) :=
  Fields.ofList (l.tag ++ select l.names l.canonPart)

/-- A record becomes an object with its kind and the canonical forms of its parts. -/
theorem canon_of_layout {l : Layout j} (h : layout? place j = some l) :
    canon place j = .object l.canonMembers := by
  rw [canon.eq_def, h]
  refine congrArg (fun members => Json.ofMembers (l.tag ++ members)) (select_congr fun name _ => ?_)
  exact l.bind_part? name fun x => if isMissing name x then none else some (canon (l.part name) x)

theorem canon_list (item : Role) (items : List Json) :
    canon (.list item) (.array items) = .array (items.map (canon item)) := by
  rw [canon]
  simp [layout?]

/-- Components are kept. -/
theorem canon_components {nested : Bool} {s : Stored j}
    (h : stored? nested j = some s) (hnames : partNames? s.kind = none) :
    canon (.node nested) j = .object (Fields.insert "type" (.string s.kind) s.members) := by
  rw [canon.eq_def]
  simp [layout?, h, hnames]

/-- An operator becomes its spelling. -/
theorem canon_operator (j : Json) : canon .operator j = (readSpelling? j).elim j .string := by
  rw [canon.eq_def]
  simp [layout?]

/-- The kind of a node is not one of its parts. -/
theorem type_notMem_of_partNames? {kind : String} {names : List String}
    (h : partNames? kind = some names) : "type" ∉ names := by
  unfold partNames? at h
  split at h
  all_goals
    cases h
  all_goals
    decide

/-- The ways in which a record is laid out. -/
theorem layout?_cases {l : Layout j} (h : layout? place j = some l) :
    (∃ nested s names, place = .node nested ∧ stored? nested j = some s ∧
      partNames? s.kind = some names ∧ l = ⟨s.toRecord, some s.kind, names, role s.kind⟩) ∨
    (∃ r, place = .entry ∧ record? ["key", "value"] j = some r ∧
      l = ⟨r, none, ["key", "value"], fun _ => .node true⟩) ∨
    ∃ r, place = .quasi ∧ record? ["value"] j = some r ∧
      l = ⟨r, some "String", ["value"], fun _ => .data⟩ := by
  cases place with
  | node nested =>
    obtain ⟨s, hs, h⟩ := Option.bind_eq_some_iff.mp h
    obtain ⟨names, hnames, h⟩ := Option.bind_eq_some_iff.mp h
    exact Or.inl ⟨nested, s, names, rfl, hs, hnames, (Option.some.inj h).symm⟩
  | entry =>
    obtain ⟨r, hr, h⟩ := Option.bind_eq_some_iff.mp h
    exact Or.inr (Or.inl ⟨r, rfl, hr, (Option.some.inj h).symm⟩)
  | quasi =>
    obtain ⟨r, hr, h⟩ := Option.bind_eq_some_iff.mp h
    exact Or.inr (Or.inr ⟨r, rfl, hr, (Option.some.inj h).symm⟩)
  | _ => cases h

theorem partNames?_eq_none {nested : Bool} {s : Stored j} (h : stored? nested j = some s)
    (hl : layout? (.node nested) j = none) : partNames? s.kind = none := by
  cases hnames : partNames? s.kind with
  | none => rfl
  | some names => simp [layout?, h, hnames] at hl

/-- No part has the name of the kind. -/
theorem type_notMem_names {l : Layout j} (h : layout? place j = some l) : "type" ∉ l.names := by
  rcases layout?_cases h with ⟨_, s, names, -, -, hnames, rfl⟩ | ⟨r, -, -, rfl⟩ | ⟨r, -, -, rfl⟩
  · exact type_notMem_of_partNames? hnames
  · simp
  · simp

/-- Where a record is laid out, an object with the same kind is laid out in the same way. -/
theorem layout?_object {l : Layout j} (h : layout? place j = some l) {fields : List (String × Json)}
    (hkind : ∀ nested, place = .node nested →
      Fields.lookup? "type" fields >>= kindOf? nested = l.kind?) :
    layout? place (.object fields) =
      some ⟨⟨fields, fun _ h => sizeOf_lt_of_mem h⟩, l.kind?, l.names, l.part⟩ := by
  rcases layout?_cases h with
    ⟨_, s, names, rfl, hs, hnames, rfl⟩ | ⟨r, rfl, hr, rfl⟩ | ⟨r, rfl, hr, rfl⟩
  · rw [layout?, stored?_object (hkind _ rfl)]
    simp [hnames]
  · simp [layout?, record?]
  · simp [layout?, record?]

/-- A part is smaller than its record. -/
theorem Layout.lt_of_lookup? (l : Layout j) {name : String} {x : Json}
    (h : Fields.lookup? name l.members = some x) : sizeOf x < sizeOf j :=
  l.smaller _ (Fields.mem_of_lookup? h)

/-- Induction over the places of a stored tree: what holds of a record if it holds of its parts, of
a list if it holds of its items, and of everything that stands for itself, holds everywhere. -/
@[elab_as_elim]
theorem canon_induction {motive : Role → Json → Prop}
    (record : ∀ place j (l : Layout j), layout? place j = some l →
      (∀ name x, Fields.lookup? name l.members = some x → motive (l.part name) x) →
      motive place j)
    (components : ∀ nested j (s : Stored j), stored? nested j = some s →
      partNames? s.kind = none → motive (.node nested) j)
    (list : ∀ item items, (∀ x ∈ items, motive item x) → motive (.list item) (.array items))
    (number : ∀ n, motive .number (.int n))
    (operator : ∀ j s, readSpelling? j = some s → motive .operator j)
    (same : ∀ place j, canon place j = j → motive place j) (place : Role) (j : Json) :
    motive place j := by
  -- Parts and items are smaller than what they are in.
  induction hk : sizeOf j using Nat.strongRecOn generalizing place j with
  | ind k ih =>
    -- A record, or else one of the places where a value has a canonical form of its own.
    cases hl : layout? place j with
    | some l =>
      refine record place j l hl fun name x hx => ?_
      exact ih (sizeOf x) (hk ▸ l.lt_of_lookup? hx) (l.part name) x rfl
    | none =>
      cases place with
      | node nested =>
        cases hs : stored? nested j with
        | none => exact same _ _ (by rw [canon.eq_def, hl]; simp [hs])
        | some s => exact components nested j s hs (partNames?_eq_none hs hl)
      | list item =>
        cases j with
        | array items =>
          exact list item items fun x hx => ih _ (hk ▸ sizeOf_lt_of_mem_array hx) item x rfl
        | _ => exact same _ _ (by simp [canon, layout?])
      | operator =>
        cases hs : readSpelling? j with
        | none => exact same _ _ (by rw [canon_operator, hs, Option.elim_none])
        | some s => exact operator j s hs
      | number =>
        cases j with
        | int n => exact number n
        | _ => exact same _ _ (by simp [canon, layout?])
      | _ => exact same _ _ (by rw [canon.eq_def, hl])

/-! ## Canonical forms are canonical -/

/-- A part of the canonical form is the canonical form of the part. -/
theorem lookup?_canonMembers {l : Layout j} (h : layout? place j = some l) {name : String}
    (hname : name ∈ l.names) : Fields.lookup? name l.canonMembers = l.canonPart name := by
  refine lookup?_ofList_select hname ?_
  have hne : "type" ≠ name := fun he => type_notMem_names h (he ▸ hname)
  unfold Layout.tag
  cases l.kind? <;> simp [Fields.lookup?, hne]

/-- The canonical form keeps the kind. -/
theorem lookup?_type_canonMembers {l : Layout j} (h : layout? place j = some l) :
    Fields.lookup? "type" l.canonMembers = l.kind?.map .string := by
  have hreverse : (select l.names l.canonPart).reverse = select l.names.reverse l.canonPart :=
    List.filterMap_reverse.symm
  rw [Layout.canonMembers, Fields.lookup?_ofList, List.reverse_append, Fields.lookup?_append,
    hreverse, lookup?_select, if_neg fun hm => type_notMem_names h (List.mem_reverse.mp hm)]
  unfold Layout.tag
  cases l.kind? <;> simp [Fields.lookup?]

/-- A canonical record is laid out as the record that it was made of. -/
theorem layout?_canonMembers {l : Layout j} (h : layout? place j = some l) :
    layout? place (.object l.canonMembers) =
      some ⟨⟨l.canonMembers, fun _ h => sizeOf_lt_of_mem h⟩, l.kind?, l.names, l.part⟩ := by
  refine layout?_object h fun nested hplace => ?_
  rw [lookup?_type_canonMembers h]
  subst hplace
  obtain ⟨_, s, names, -, hs, hnames, rfl⟩ | ⟨r, hplace, -⟩ | ⟨r, hplace, -⟩ := layout?_cases h
  · rfl
  · cases hplace
  · cases hplace

/-- Only `null` has the canonical form `null` where a node is read. -/
theorem canon_node_eq_null_iff {nested : Bool} : canon (.node nested) j = .null ↔ j = .null := by
  rw [canon.eq_def]
  split
  · next l hl =>
    refine iff_of_false nofun ?_
    rintro rfl
    cases hl
  · next hl =>
    simp only
    split
    · next s hs =>
      refine iff_of_false nofun ?_
      rintro rfl
      cases hs
    · rfl

theorem isMissing_iff {name : String} :
    isMissing name j = true ↔ IsBranch name ∧ j = .null := by
  cases j <;> simp [isMissing]

/-- Only nodes can be missing. -/
theorem part_of_isBranch {l : Layout j} (h : layout? place j = some l) {name : String}
    (hname : name ∈ l.names) (hbranch : IsBranch name) : l.part name = .node true := by
  rcases layout?_cases h with ⟨_, s, names, -, -, -, rfl⟩ | ⟨r, -, -, rfl⟩ | ⟨r, -, -, rfl⟩
  · rcases hbranch with rfl | rfl <;> rfl
  · rfl
  · have hvalue : name = "value" := List.mem_singleton.mp hname
    exact absurd (hvalue ▸ hbranch) (by decide)

/-- A part counts as missing just if its canonical form does. -/
theorem isMissing_canon {l : Layout j} (h : layout? place j = some l) {name : String}
    (hname : name ∈ l.names) (x : Json) :
    isMissing name (canon (l.part name) x) = isMissing name x := by
  rw [Bool.eq_iff_iff, isMissing_iff, isMissing_iff]
  refine and_congr_right fun hbranch => ?_
  rw [part_of_isBranch h hname hbranch, canon_node_eq_null_iff]

/-- The canonical form of a canonical form is the form itself. -/
theorem canon_canon (place : Role) (j : Json) : canon place (canon place j) = canon place j := by
  induction place, j using canon_induction with
  | record place j l hl ih =>
    -- A canonical part is its own canonical form, and does not become missing.
    have hpart : ∀ name ∈ l.names, (l.canonPart name >>= fun x =>
        if isMissing name x then none else some (canon (l.part name) x)) = l.canonPart name := by
      intro name hname
      cases hx : Fields.lookup? name l.members with
      | none => simp [Layout.canonPart, hx]
      | some x =>
        have hmissing := isMissing_canon hl hname x
        cases hm : isMissing name x <;> simp [Layout.canonPart, hx, hm, hmissing, ih name x hx]
    rw [canon_of_layout hl, canon_of_layout (layout?_canonMembers hl)]
    refine congrArg (fun members => Json.object (Fields.ofList (l.tag ++ members))) ?_
    refine select_congr fun name hname => ?_
    rw [← hpart name hname, ← lookup?_canonMembers hl hname]
    rfl
  | components nested j s hs hnames =>
    have hs' : stored? nested (.object (Fields.insert "type" (.string s.kind) s.members)) = _ :=
      stored?_object (by rw [Fields.lookup?_insert_self]; rfl)
    rw [canon_components hs hnames, canon_components hs' hnames, Fields.insert_insert_self]
  | list item items ih =>
    rw [canon_list, canon_list, List.map_map]
    exact congrArg Json.array (List.map_congr_left ih)
  | number n => simp [canon, layout?]
  | operator j s hs =>
    rw [canon_operator, canon_operator, hs]
    simp [readSpelling?]
  | same place j h => rw [h, h]

/-! ## Members of valid values -/

/-- The members of a record are valid if the whole is. -/
theorem valid_of_record? {names : List String} {r : Record j} (h : record? names j = some r)
    (hj : j.Valid) : ∀ m ∈ r.members, m.2.Valid := by
  cases hj with
  | object _ hfields =>
    cases h
    exact hfields
  | array hitems =>
    rw [record?] at h
    split at h
    · cases h
      exact fun m hm => hitems _ (List.of_mem_zip hm).2
    · cases h
  | _ => cases h

/-- The members of a stored node are valid if the whole is. -/
theorem valid_of_stored? {nested : Bool} {s : Stored j} (h : stored? nested j = some s)
    (hj : j.Valid) : ∀ m ∈ s.members, m.2.Valid := by
  cases hj with
  | object _ hfields =>
    obtain ⟨kind, -, h⟩ := Option.bind_eq_some_iff.mp h
    cases h
    exact hfields
  | @array items hitems =>
    cases items with
    | nil => cases h
    | cons tag items =>
      obtain ⟨kind, -, h⟩ := Option.bind_eq_some_iff.mp h
      obtain ⟨names, -, h⟩ := Option.bind_eq_some_iff.mp h
      split at h
      · cases h
        exact fun m hm => hitems _ (List.mem_cons_of_mem _ (List.of_mem_zip hm).2)
      · cases h
  | _ => cases h

/-- The components of a value are a map. -/
theorem ascending_of_stored? {nested : Bool} {s : Stored j} (h : stored? nested j = some s)
    (hnames : partNames? s.kind = none) (hj : j.Valid) : Fields.Ascending s.members := by
  -- Components are the members of an object; a list has the names of a kind, and components have
  -- none.
  cases hj with
  | object hfields _ =>
    obtain ⟨kind, -, h⟩ := Option.bind_eq_some_iff.mp h
    cases h
    exact hfields
  | @array items _ =>
    cases items with
    | nil => cases h
    | cons tag items =>
      obtain ⟨kind, -, h⟩ := Option.bind_eq_some_iff.mp h
      obtain ⟨names, hn, h⟩ := Option.bind_eq_some_iff.mp h
      split at h
      · cases h
        exact nomatch hn.symm.trans hnames
      · cases h
  | _ => cases h

/-- The members of a layout are valid if the whole is. -/
theorem valid_of_layout? {l : Layout j} (h : layout? place j = some l) (hj : j.Valid) :
    ∀ m ∈ l.members, m.2.Valid := by
  rcases layout?_cases h with ⟨_, s, names, -, hs, -, rfl⟩ | ⟨r, -, hr, rfl⟩ | ⟨r, -, hr, rfl⟩
  · exact valid_of_stored? hs hj
  · exact valid_of_record? hr hj
  · exact valid_of_record? hr hj

end Node

end Brace
