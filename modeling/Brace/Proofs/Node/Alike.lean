/-
# Stored trees that are read alike

What is read from a record depends on its kind and on what is read from its parts, and on nothing
else (`alike_of_layout?`).
-/
import Brace.Proofs.Node.Canonical

namespace Brace.Node

/-! ## Reading alike -/

/-- The same is read from two values at a place. -/
def Alike : Role → Json → Json → Prop
  | .node nested, j, j' => ofJson? nested j' = ofJson? nested j ∧ (j' = .null ↔ j = .null)
  | .entry, j, j' => entryOfJson? j' = entryOfJson? j
  | .quasi, j, j' => readQuasi? j' = readQuasi? j
  | .list item, j, j' =>
    j' = j ∨ ∃ items items', j = .array items ∧ j' = .array items' ∧
      List.Forall₂ (Alike item) items items'
  | .number, j, j' => readNumber? j' = readNumber? j
  | .operator, j, j' => readSpelling? j' = readSpelling? j
  | .data, j, j' => j' = j

@[refl]
theorem Alike.refl (place : Role) (j : Json) : Alike place j j := by
  cases place with
  | node nested => exact ⟨rfl, Iff.rfl⟩
  | list item => exact Or.inl rfl
  | _ => rfl

/-- Two parts are alike if the same is read from them, or if one is missing and the other counts as
missing. -/
def AlikePart (place : Role) (name : String) : Option Json → Option Json → Prop
  | some x, some x' => Alike place x x'
  | some x, none => isMissing name x = true
  | none, some _ => False
  | none, none => True

theorem AlikePart.refl (place : Role) (name : String) (o : Option Json) :
    AlikePart place name o o := by
  cases o with
  | none => trivial
  | some x => exact Alike.refl place x

/-- A part that cannot be missing is read alike. -/
theorem AlikePart.bind {place : Role} {name : String} {o o' : Option Json}
    (h : AlikePart place name o o') (hname : ¬ IsBranch name)
    {α : Type} {read : Json → Option α} (hread : ∀ x x', Alike place x x' → read x' = read x) :
    o' >>= read = o >>= read := by
  cases o with
  | none =>
    cases o' with
    | none => rfl
    | some x' => cases h
  | some x =>
    cases o' with
    | none => exact absurd (isMissing_iff.mp h).1 hname
    | some x' => exact hread x x' h

/-- A branch is read alike. -/
theorem AlikePart.branch {name : String} {o o' : Option Json}
    (h : AlikePart (.node true) name o o') :
    o'.elim (some none) branchOfJson? = o.elim (some none) branchOfJson? := by
  cases o with
  | none =>
    cases o' with
    | none => rfl
    | some x' => cases h
  | some x =>
    cases o' with
    | none =>
      obtain ⟨-, rfl⟩ := isMissing_iff.mp h
      rw [Option.elim_some, branchOfJson?]
      rfl
    | some x' =>
      obtain ⟨hread, hnull⟩ := h
      -- A branch that is `null` is read as no branch, and both are or none is.
      by_cases hx : x = .null
      · rw [hx, hnull.mpr hx]
      · rw [Option.elim_some, Option.elim_some, branchOfJson?, branchOfJson?, hread]
        · exact hx
        · exact mt hnull.mp hx

/-- Lists are read alike if their items are, one by one. -/
theorem mapM_congr_forall₂ {α : Type} {R : Json → Json → Prop} {read : Json → Option α}
    (hread : ∀ x x', R x x' → read x' = read x) {items items' : List Json}
    (h : List.Forall₂ R items items') : items'.mapM read = items.mapM read := by
  induction h with
  | nil => rfl
  | cons hx _ ih => rw [List.mapM_cons, List.mapM_cons, hread _ _ hx, ih]

/-- Parts that are lists are read alike if their items are. -/
theorem Alike.list {α : Type} {item : Role} {x x' : Json} (h : Alike (.list item) x x')
    {read : Json → Option (List α)} {readItem : Json → Option α}
    (hread : ∀ items, read (.array items) = items.mapM readItem)
    (hitem : ∀ y y', Alike item y y' → readItem y' = readItem y) : read x' = read x := by
  rcases h with rfl | ⟨items, items', rfl, rfl, hitems⟩
  · rfl
  · rw [hread, hread, mapM_congr_forall₂ hitem hitems]

theorem Alike.nodes {x x' : Json} (h : Alike (.list (.node true)) x x') :
    listOfJson? x' = listOfJson? x :=
  h.list (fun items => by rw [listOfJson?, itemsOfJson?_eq]) fun _ _ hy => hy.1

theorem Alike.entries {x x' : Json} (h : Alike (.list .entry) x x') :
    pairsOfJson? x' = pairsOfJson? x :=
  h.list (fun items => by rw [pairsOfJson?, entriesOfJson?_eq]) fun _ _ hy => hy

theorem Alike.quasis {x x' : Json} (h : Alike (.list .quasi) x x') :
    readQuasis? x' = readQuasis? x :=
  h.list (fun _ => rfl) fun _ _ hy => hy

/-- The parts of a node of the given kind are alike, name by name. -/
def AlikeParts (kind : String) (names : List String) (members members' : List (String × Json)) :
    Prop :=
  ∀ name ∈ names, AlikePart (role kind name) name (Fields.lookup? name members)
    (Fields.lookup? name members')

namespace AlikeParts

variable {kind : String} {names : List String} {members members' : List (String × Json)}

/-- What is read at a place of one node is read at the same place of the other. -/
theorem read (h : AlikeParts kind names members members') {α : Type} (name : String)
    (hname : name ∈ names) (hrequired : ¬ IsBranch name) {place : Role}
    (hrole : role kind name = place) {read : Json → Option α}
    (hread : ∀ x x', Alike place x x' → read x' = read x) :
    Fields.lookup? name members' >>= read = Fields.lookup? name members >>= read :=
  (hrole ▸ h name hname : AlikePart place ..).bind hrequired hread

/-- A part that is not a node is kept as it is. -/
theorem data (h : AlikeParts kind names members members') {α : Type} (name : String)
    (hname : name ∈ names) (hrequired : ¬ IsBranch name) (hrole : role kind name = .data)
    (read : Json → Option α) :
    Fields.lookup? name members' >>= read = Fields.lookup? name members >>= read :=
  h.read name hname hrequired hrole fun _ _ hx => congrArg read hx

/-- A part that is a node is read alike. -/
theorem node (h : AlikeParts kind names members members') (name : String) (hname : name ∈ names)
    (hrequired : ¬ IsBranch name) (hrole : role kind name = .node true) :
    Fields.lookup? name members' >>= ofJson? true = Fields.lookup? name members >>= ofJson? true :=
  h.read name hname hrequired hrole fun _ _ hx => hx.1

/-- A part that is a list of nodes is read alike. -/
theorem nodes (h : AlikeParts kind names members members') (name : String) (hname : name ∈ names)
    (hrequired : ¬ IsBranch name) (hrole : role kind name = .list (.node true)) :
    Fields.lookup? name members' >>= listOfJson? = Fields.lookup? name members >>= listOfJson? :=
  h.read name hname hrequired hrole fun _ _ hx => hx.nodes

/-- A branch is read alike, and missing on both sides if on one. -/
theorem branch (h : AlikeParts kind names members members') (name : String) (hname : name ∈ names)
    (hrole : role kind name = .node true) :
    (Parts.ofMembers members').branch name = (Parts.ofMembers members).branch name :=
  (hrole ▸ h name hname : AlikePart (.node true) ..).branch

end AlikeParts

/-- What is read from the parts of a node determines the node. -/
theorem assemble?_congr {kind : String} {names : List String}
    (hnames : partNames? kind = some names) {members members' : List (String × Json)}
    (h : AlikeParts kind names members members') :
    assemble? kind (.ofMembers members') = assemble? kind (.ofMembers members) := by
  -- One case for each kind, in the order of `partNames?`.
  unfold partNames? at hnames
  split at hnames
  all_goals cases hnames
  all_goals simp only [assemble?, Parts.data_ofMembers, Parts.node_ofMembers, Parts.nodes_ofMembers,
    Parts.entries_ofMembers]
  -- numbers
  · rw [h.read "value" (by simp) (by decide) rfl fun _ _ hx => hx]
  -- texts
  · rw [h.data "value" (by simp) (by decide) rfl]
  -- truth values
  · rw [h.data "value" (by simp) (by decide) rfl]
  -- values that are kept as they are
  · rw [h.data "value" (by simp) (by decide) rfl]
  -- regular expressions, with a pattern and flags
  · rw [h.data "pattern" (by simp) (by decide) rfl, h.data "flags" (by simp) (by decide) rfl]
  -- variables
  · rw [h.data "name" (by simp) (by decide) rfl]
  -- prefix operators
  · rw [h.read "operator" (by simp) (by decide) rfl fun _ _ hx => congrArg (· >>= _) hx,
      h.node "argument" (by simp) (by decide) rfl]
  -- operators between two operands
  · rw [h.read "operator" (by simp) (by decide) rfl fun _ _ hx => congrArg (· >>= _) hx,
      h.node "left" (by simp) (by decide) rfl, h.node "right" (by simp) (by decide) rfl]
  -- assignments
  · rw [h.node "left" (by simp) (by decide) rfl, h.node "right" (by simp) (by decide) rfl]
  -- calls
  · rw [h.node "callee" (by simp) (by decide) rfl, h.nodes "arguments" (by simp) (by decide) rfl]
  -- members
  · rw [h.node "object" (by simp) (by decide) rfl, h.node "property" (by simp) (by decide) rfl]
  -- object literals
  · rw [h.read "properties" (by simp) (by decide) rfl fun _ _ hx => hx.entries]
  -- array literals
  · rw [h.nodes "elements" (by simp) (by decide) rfl]
  -- templates
  · rw [h.read "quasis" (by simp) (by decide) rfl fun _ _ hx => hx.quasis,
      h.nodes "expressions" (by simp) (by decide) rfl]
  -- programs
  · rw [h.nodes "body" (by simp) (by decide) rfl]
  -- blocks
  · rw [h.nodes "body" (by simp) (by decide) rfl]
  -- conditionals, whose branches may be missing
  · rw [h.node "test" (by simp) (by decide) rfl, h.branch "consequent" (by simp) rfl,
      h.branch "alternate" (by simp) rfl]

variable {place : Role} {j j' : Json}

/-- What is stored as a record is not `null`. -/
theorem ne_null_of_layout? {l : Layout j} (h : layout? place j = some l) : j ≠ .null := by
  rintro rfl
  cases place <;> cases h

/-- Two records of the same kind are read alike if their parts are. -/
theorem alike_of_layout? {l : Layout j} {l' : Layout j'} (hl : layout? place j = some l)
    (hl' : layout? place j' = some l') (hkind : l'.kind? = l.kind?)
    (h : ∀ name ∈ l.names, AlikePart (l.part name) name (Fields.lookup? name l.members)
      (Fields.lookup? name l'.members)) : Alike place j j' := by
  -- The place decides what kind of record it is, so both layouts are of the same kind.
  rcases layout?_cases hl with
    ⟨nested, s, names, rfl, hs, hnames, rfl⟩ | ⟨r, rfl, hr, rfl⟩ | ⟨r, rfl, hr, rfl⟩
  · refine ⟨?_, iff_of_false (ne_null_of_layout? hl') (ne_null_of_layout? hl)⟩
    rcases layout?_cases hl' with ⟨_, s', names', hplace, hs', hnames', rfl⟩ | ⟨_, hplace, -, -⟩ |
      ⟨_, hplace, -, -⟩
    · cases hplace
      have hsame : s'.kind = s.kind := Option.some.inj hkind
      rw [ofJson?_eq, ofJson?_eq, hs, hs']
      show assemble? s'.kind (.ofMembers s'.members) = assemble? s.kind (.ofMembers s.members)
      rw [hsame]
      exact assemble?_congr hnames h
    · cases hplace
    · cases hplace
  · rcases layout?_cases hl' with ⟨_, _, _, hplace, -, -, -⟩ | ⟨r', -, hr', rfl⟩ | ⟨_, hplace, -, -⟩
    · cases hplace
    · have hkey : Fields.lookup? "key" r'.members >>= ofJson? true =
          Fields.lookup? "key" r.members >>= ofJson? true :=
        (h "key" (by simp)).bind (by decide) fun _ _ hx => hx.1
      have hvalue : Fields.lookup? "value" r'.members >>= ofJson? true =
          Fields.lookup? "value" r.members >>= ofJson? true :=
        (h "value" (by simp)).bind (by decide) fun _ _ hx => hx.1
      show entryOfJson? j' = entryOfJson? j
      rw [entryOfJson?_eq, entryOfJson?_eq, hr, hr']
      show (Fields.lookup? "key" r'.members >>= ofJson? true) >>= (fun key =>
        (Fields.lookup? "value" r'.members >>= ofJson? true) >>= fun value =>
          some (key, value)) = _
      rw [hkey, hvalue]
      rfl
    · cases hplace
  · rcases layout?_cases hl' with ⟨_, _, _, hplace, -, -, -⟩ | ⟨_, hplace, -, -⟩ | ⟨r', -, hr', rfl⟩
    · cases hplace
    · cases hplace
    · show readQuasi? j' = readQuasi? j
      rw [readQuasi?, readQuasi?, hr, hr']
      exact (h "value" List.mem_cons_self).bind (by decide) fun x x' hx => congrArg readString? hx

/-- A description of components is determined by the members beside its kind. -/
theorem assemble?_congr_erase {kind : String} (hnames : partNames? kind = none)
    {members members' : List (String × Json)}
    (h : Fields.erase "type" members' = Fields.erase "type" members) :
    assemble? kind (.ofMembers members') = assemble? kind (.ofMembers members) := by
  unfold assemble?
  split
  case h_19 => rw [Parts.members_ofMembers, Parts.members_ofMembers, h]
  case h_20 => rfl
  all_goals cases hnames

/-- The canonical form of a value is read like the value. -/
theorem alike_canon (place : Role) (j : Json) : Alike place j (canon place j) := by
  -- Down the places where the canonical form changes something.
  induction place, j using canon_induction with
  | record place j l hl ih =>
    rw [canon_of_layout hl]
    refine alike_of_layout? hl (layout?_canonMembers hl) rfl fun name hname => ?_
    rw [lookup?_canonMembers hl hname, Layout.canonPart]
    cases hx : Fields.lookup? name l.members with
    | none => trivial
    | some x =>
      rw [Option.bind_eq_bind, Option.bind_some]
      -- A part that counts as missing is missing in the canonical form.
      split
      · next hmissing => exact hmissing
      · exact ih name x hx
  | components nested j s hs hnames =>
    have hnull : j ≠ .null := by
      rintro rfl
      cases hs
    have hs' : stored? nested (.object (Fields.insert "type" (.string s.kind) s.members)) = _ :=
      stored?_object (by rw [Fields.lookup?_insert_self]; rfl)
    rw [canon_components hs hnames]
    refine ⟨?_, iff_of_false (by simp) hnull⟩
    rw [ofJson?_eq, ofJson?_eq, hs, hs']
    exact assemble?_congr_erase hnames (Fields.erase_insert_self _ _ _)
  | list item items ih =>
    rw [canon_list]
    refine Or.inr ⟨items, _, rfl, rfl, List.forall₂_map_right_iff.mpr ?_⟩
    exact List.forall₂_same.mpr ih
  | number n => simp [canon, layout?, Alike, readNumber?]
  | operator j s hs =>
    rw [canon_operator, hs]
    exact hs.symm
  | same place j h => rw [h]

end Brace.Node
