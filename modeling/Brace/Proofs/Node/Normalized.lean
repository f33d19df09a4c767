/-
# Writing what was read

What is written of a part is the canonical form of what the part was read from, so a node that was
read is written as the canonical form of the stored value (`Node.toJson_eq_canon`).  The proof goes
down the stored value, from a record to its parts (`Node.Exact`).
-/
import Brace.Proofs.Node.Alike
import Brace.Proofs.Node.Stored

namespace Brace.Node

variable {j : Json}

/-! ## Parts that are written -/

/-- A list is written as it was read if each of its items is. -/
theorem mapM_eq_some_map {α : Type} {read : Json → Option α} {write : α → Json} {f : Json → Json}
    {items : List Json} {as : List α} (h : items.mapM read = some as)
    (hwrite : ∀ x ∈ items, ∀ a, read x = some a → f x = write a) : items.map f = as.map write := by
  induction items generalizing as with
  | nil =>
    cases h
    rfl
  | cons x items ih =>
    rw [List.mapM_cons] at h
    obtain ⟨a, ha, h⟩ := Option.bind_eq_some_iff.mp h
    obtain ⟨as, has, h⟩ := Option.bind_eq_some_iff.mp h
    cases h
    rw [List.forall_mem_cons] at hwrite
    rw [List.map_cons, List.map_cons, hwrite.1 a ha, ih has hwrite.2]

/-- A part that is read and not missing is written in its canonical form. -/
theorem canonPart_eq_some {l : Layout j} {name : String}
    (hrequired : ¬ IsBranch name) {α : Type} {read : Json → Option α}
    {a : α} (h : Fields.lookup? name l.members >>= read = some a) {y : Json}
    (hwrite : ∀ x, Fields.lookup? name l.members = some x → read x = some a →
      canon (l.part name) x = y) : l.canonPart name = some y := by
  obtain ⟨x, hx, ha⟩ := Option.bind_eq_some_iff.mp h
  have hmissing : isMissing name x = false := Bool.eq_false_iff.mpr fun hm =>
    hrequired (isMissing_iff.mp hm).1
  simp [Layout.canonPart, hx, hmissing, hwrite x hx ha]

/-- The nodes that are read from values of less than a size are written as their canonical forms. -/
def Exact (size : Nat) : Prop :=
  ∀ x : Json, sizeOf x < size → x.Valid → ∀ nested n, ofJson? nested x = some n →
    canon (.node nested) x = n.toJson

/-- The canonical form of a number is what is written of it. -/
theorem canon_number {x : Json} {v : Float} (hx : x.Valid) (h : readNumber? x = some v) :
    canon .number x = numberJson v := by
  cases hx with
  | float hfinite =>
    cases h
    simp [canon, layout?, numberJson, hfinite]
  | @int n hlow hhigh =>
    cases h
    have hfinite : Number.isFinite (Number.ofInt n) = true := Number.isFinite_ofInt (by omega)
    simp [canon, layout?, numberJson, hfinite]
  | _ => cases h

theorem canon_data (x : Json) : canon .data x = x := by
  simp [canon, layout?]

/-- A text is read from a text alone. -/
theorem eq_of_readString? {x : Json} {s : String} (h : readString? x = some s) : x = .string s := by
  cases x <;> cases h
  rfl

theorem eq_of_readBool? {x : Json} {b : Bool} (h : readBool? x = some b) : x = .bool b := by
  cases x <;> cases h
  rfl

/-- An operator is written by its spelling. -/
theorem canon_operator_of_find? {α : Type} {spelling : α → String} {all : List α} {x : Json}
    {op : α} (h : (readSpelling? x >>= fun s => all.find? (spelling · = s)) = some op) :
    canon .operator x = .string (spelling op) := by
  obtain ⟨s, hs, hop⟩ := Option.bind_eq_some_iff.mp h
  have hspelling : spelling op = s := by simpa using List.find?_some hop
  rw [canon_operator, hs, Option.elim_some, hspelling]

section

variable {size : Nat}

theorem Exact.mono {size' : Nat} (h : Exact size) (hle : size' ≤ size) : Exact size' :=
  fun x hlt => h x (hlt.trans_le hle)

/-- Nodes of a list are written as the canonical form of the list. -/
theorem Exact.nodes (h : Exact size) {x : Json} (hlt : sizeOf x < size) (hx : x.Valid)
    {as : List Node} (has : listOfJson? x = some as) :
    canon (.list (.node true)) x = .array (listToJson as) := by
  cases x with
  | array items =>
    rw [listOfJson?, itemsOfJson?_eq] at has
    rw [canon_list, listToJson_eq]
    refine congrArg Json.array (mapM_eq_some_map has fun y hy a ha => ?_)
    exact h y ((sizeOf_lt_of_mem_array hy).trans hlt) (hx.of_mem hy) true a ha
  | _ => simp [listOfJson?] at has

/-- A part is written as all values are that it can be read from, which are smaller ones. -/
theorem canonPart_of_read {l : Layout j} (hvalid : ∀ m ∈ l.members, m.2.Valid) {name : String}
    (hrequired : ¬ IsBranch name) {place : Role} (hrole : l.part name = place) {α : Type}
    {read : Json → Option α} {a : α} (ha : Fields.lookup? name l.members >>= read = some a)
    {y : Json}
    (hwrite : ∀ x, sizeOf x < sizeOf j → x.Valid → read x = some a → canon place x = y) :
    l.canonPart name = some y :=
  canonPart_eq_some hrequired ha fun x hx hread => by
    rw [hrole]
    exact hwrite x (l.lt_of_lookup? hx) (hvalid _ (Fields.mem_of_lookup? hx)) hread

/-- A part that is a text is written as this text. -/
theorem canonPart_string {l : Layout j} (hvalid : ∀ m ∈ l.members, m.2.Valid) {name : String}
    (hrequired : ¬ IsBranch name) (hrole : l.part name = .data) {s : String}
    (hs : Fields.lookup? name l.members >>= readString? = some s) :
    l.canonPart name = some (.string s) :=
  canonPart_of_read hvalid hrequired hrole hs fun x _ _ hread =>
    (canon_data x).trans (eq_of_readString? hread)

/-- A part that is a node is written as its canonical form. -/
theorem Exact.canonPart_node (h : Exact (sizeOf j)) {l : Layout j}
    (hvalid : ∀ m ∈ l.members, m.2.Valid) {name : String} (hrequired : ¬ IsBranch name)
    (hrole : l.part name = .node true) {a : Node}
    (ha : Fields.lookup? name l.members >>= ofJson? true = some a) :
    l.canonPart name = some a.toJson :=
  canonPart_of_read hvalid hrequired hrole ha fun x hlt hx hread => h x hlt hx true a hread

/-- A part that is a list of nodes is written as the list of their canonical forms. -/
theorem Exact.canonPart_nodes (h : Exact (sizeOf j)) {l : Layout j}
    (hvalid : ∀ m ∈ l.members, m.2.Valid) {name : String} (hrequired : ¬ IsBranch name)
    (hrole : l.part name = .list (.node true)) {as : List Node}
    (has : Fields.lookup? name l.members >>= listOfJson? = some as) :
    l.canonPart name = some (.array (listToJson as)) :=
  canonPart_of_read hvalid hrequired hrole has fun _ hlt hx hread => h.nodes hlt hx hread

/-- An entry is written as the canonical form of what it was read from. -/
theorem Exact.entry (h : Exact size) {x : Json} (hlt : sizeOf x < size) (hx : x.Valid)
    {p : Node × Node} (hp : entryOfJson? x = some p) : canon .entry x = pairJson p := by
  rw [entryOfJson?_eq] at hp
  obtain ⟨r, hr, hp⟩ := Option.bind_eq_some_iff.mp hp
  obtain ⟨a, ha, hp⟩ := Option.bind_eq_some_iff.mp hp
  obtain ⟨b, hb, hp⟩ := Option.bind_eq_some_iff.mp hp
  cases hp
  let l : Layout x := ⟨r, none, ["key", "value"], fun _ => .node true⟩
  have hl : layout? .entry x = some l := by rw [layout?, hr]; rfl
  have hvalid := valid_of_layout? hl hx
  have hkey : l.canonPart "key" = some a.toJson :=
    (h.mono hlt.le).canonPart_node hvalid (by decide) rfl ha
  have hvalue : l.canonPart "value" = some b.toJson :=
    (h.mono hlt.le).canonPart_node hvalid (by decide) rfl hb
  rw [canon_of_layout hl, Layout.canonMembers]
  show Json.object (Fields.ofList (select ["key", "value"] l.canonPart)) = _
  simp [select, hkey, hvalue, pairJson, Json.ofMembers]

/-- Entries are written as the canonical form of the list that they were read from. -/
theorem Exact.entries (h : Exact size) {x : Json} (hlt : sizeOf x < size) (hx : x.Valid)
    {ps : List (Node × Node)} (hps : pairsOfJson? x = some ps) :
    canon (.list .entry) x = .array (pairsToJson ps) := by
  cases x with
  | array items =>
    rw [pairsOfJson?, entriesOfJson?_eq] at hps
    rw [canon_list, pairsToJson_eq]
    refine congrArg Json.array (mapM_eq_some_map hps fun y hy p hp => ?_)
    exact h.entry ((sizeOf_lt_of_mem_array hy).trans hlt) (hx.of_mem hy) hp
  | _ => simp [pairsOfJson?] at hps

/-- A branch is written as its canonical form, and left out if it is missing. -/
theorem Exact.canonPart_branch (h : Exact (sizeOf j)) {l : Layout j}
    (hvalid : ∀ m ∈ l.members, m.2.Valid) {name : String} (hbranch : IsBranch name)
    (hrole : l.part name = .node true) {b : Option Node}
    (hb : (Fields.lookup? name l.members).elim (some none) branchOfJson? = some b) :
    l.canonPart name = b.map toJson := by
  cases hx : Fields.lookup? name l.members with
  | none =>
    rw [hx] at hb
    cases hb
    simp [Layout.canonPart, hx]
  | some x =>
    rw [hx, Option.elim_some] at hb
    -- A branch that is stored as `null` is written as a branch that is missing.
    by_cases hnull : x = .null
    · rw [hnull, branchOfJson?] at hb
      cases hb
      simp [Layout.canonPart, hx, isMissing_iff.mpr ⟨hbranch, hnull⟩]
    · rw [branchOfJson?.eq_2 x hnull] at hb
      obtain ⟨a, ha, rfl⟩ := Option.map_eq_some_iff.mp hb
      have hmissing : isMissing name x = false := Bool.eq_false_iff.mpr fun hm =>
        hnull (isMissing_iff.mp hm).2
      have hsame := h x (l.lt_of_lookup? hx) (hvalid _ (Fields.mem_of_lookup? hx)) true a ha
      simp [Layout.canonPart, hx, hmissing, hrole, hsame]

end

/-- Pieces of text are written as the canonical form of the list that they were read from. -/
theorem canon_quasis {x : Json} {quasis : List String} (h : readQuasis? x = some quasis) :
    canon (.list .quasi) x = .array (quasis.map quasiJson) := by
  cases x with
  | array items =>
    rw [canon_list]
    refine congrArg Json.array (mapM_eq_some_map h fun y hy q hq => ?_)
    obtain ⟨r, hr, hq⟩ := Option.bind_eq_some_iff.mp hq
    let l : Layout y := ⟨r, some "String", ["value"], fun _ => .data⟩
    have hl : layout? .quasi y = some l := by rw [layout?, hr]; rfl
    have hvalue : l.canonPart "value" = some (.string q) :=
      canonPart_eq_some (by decide) hq fun z _ hz => (canon_data z).trans (eq_of_readString? hz)
    rw [canon_of_layout hl]
    show tagged "String" (select ["value"] l.canonPart) = _
    simp [select, hvalue, quasiJson]
  | _ => cases h

/-! ## Nodes -/

/-- A node of a kind with parts is written as its canonical form. -/
theorem toJson_of_assemble? (hexact : Exact (sizeOf j)) {r : Record j}
    (hvalid : ∀ m ∈ r.members, m.2.Valid) {kind : String} {names : List String}
    (hnames : partNames? kind = some names) {n : Node}
    (h : assemble? kind (.ofMembers r.members) = some n) :
    n.toJson = .object (Layout.canonMembers ⟨r, some kind, names, role kind⟩) := by
  let l : Layout j := ⟨r, some kind, names, role kind⟩
  show n.toJson = tagged kind (select names l.canonPart)
  -- One case for each kind, in the order of `partNames?`.
  unfold partNames? at hnames
  split at hnames
  all_goals cases hnames
  all_goals simp only [assemble?, Option.pure_def, Option.bind_eq_bind, Option.bind_eq_some_iff,
    Option.some.injEq] at h
  -- numbers
  · obtain ⟨v, hv, rfl⟩ := h
    have hvalue : l.canonPart "value" = some (numberJson v) :=
      canonPart_of_read hvalid (by decide) rfl hv fun x _ hx hread => canon_number hx hread
    simp [toJson, select, hvalue]
  -- texts
  · obtain ⟨s, hs, rfl⟩ := h
    have hvalue : l.canonPart "value" = some (.string s) :=
      canonPart_string hvalid (by decide) rfl hs
    simp [toJson, select, hvalue]
  -- truth values
  · obtain ⟨b, hb, rfl⟩ := h
    have hvalue : l.canonPart "value" = some (.bool b) :=
      canonPart_of_read hvalid (by decide) rfl hb fun x _ _ hread =>
        (canon_data x).trans (eq_of_readBool? hread)
    simp [toJson, select, hvalue]
  -- values that are kept as they are
  · obtain ⟨x, hx, rfl⟩ := h
    have hvalue : l.canonPart "value" = some x :=
      canonPart_of_read hvalid (by decide) rfl hx fun y _ _ hread =>
        (canon_data y).trans (Option.some.inj hread)
    simp [toJson, select, hvalue]
  -- `null`, which has no parts
  · subst h
    simp [toJson, select]
  -- regular expressions, with a pattern and flags
  · obtain ⟨p, hp, f, hf, rfl⟩ := h
    have hpattern : l.canonPart "pattern" = some (.string p) :=
      canonPart_string hvalid (by decide) rfl hp
    have hflags : l.canonPart "flags" = some (.string f) :=
      canonPart_string hvalid (by decide) rfl hf
    simp [toJson, select, hpattern, hflags]
  -- variables
  · obtain ⟨s, hs, rfl⟩ := h
    have hname : l.canonPart "name" = some (.string s) := canonPart_string hvalid (by decide) rfl hs
    simp [toJson, select, hname]
  -- prefix operators
  · obtain ⟨op, hop, a, ha, rfl⟩ := h
    have hoperator : l.canonPart "operator" = some (.string op.spelling) :=
      canonPart_of_read hvalid (by decide) rfl hop fun x _ _ hread => canon_operator_of_find? hread
    have hargument : l.canonPart "argument" = some a.toJson :=
      hexact.canonPart_node hvalid (by decide) rfl ha
    simp [toJson, select, hoperator, hargument]
  -- operators between two operands
  · obtain ⟨op, hop, a, ha, b, hb, rfl⟩ := h
    have hoperator : l.canonPart "operator" = some (.string op.spelling) :=
      canonPart_of_read hvalid (by decide) rfl hop fun x _ _ hread => canon_operator_of_find? hread
    have hleft : l.canonPart "left" = some a.toJson :=
      hexact.canonPart_node hvalid (by decide) rfl ha
    have hright : l.canonPart "right" = some b.toJson :=
      hexact.canonPart_node hvalid (by decide) rfl hb
    simp [toJson, select, hoperator, hleft, hright]
  -- assignments
  · obtain ⟨a, ha, b, hb, rfl⟩ := h
    have hleft : l.canonPart "left" = some a.toJson :=
      hexact.canonPart_node hvalid (by decide) rfl ha
    have hright : l.canonPart "right" = some b.toJson :=
      hexact.canonPart_node hvalid (by decide) rfl hb
    simp [toJson, select, hleft, hright]
  -- calls
  · obtain ⟨f, hf, as, has, rfl⟩ := h
    have hcallee : l.canonPart "callee" = some f.toJson :=
      hexact.canonPart_node hvalid (by decide) rfl hf
    have harguments : l.canonPart "arguments" = some (.array (listToJson as)) :=
      hexact.canonPart_nodes hvalid (by decide) rfl has
    simp [toJson, select, hcallee, harguments]
  -- members
  · obtain ⟨a, ha, b, hb, rfl⟩ := h
    have hobject : l.canonPart "object" = some a.toJson :=
      hexact.canonPart_node hvalid (by decide) rfl ha
    have hproperty : l.canonPart "property" = some b.toJson :=
      hexact.canonPart_node hvalid (by decide) rfl hb
    simp [toJson, select, hobject, hproperty]
  -- object literals
  · obtain ⟨ps, hps, rfl⟩ := h
    have hproperties : l.canonPart "properties" = some (.array (pairsToJson ps)) :=
      canonPart_of_read hvalid (by decide) rfl hps fun x hlt hx hread => hexact.entries hlt hx hread
    simp [toJson, select, hproperties]
  -- array literals
  · obtain ⟨as, has, rfl⟩ := h
    have helements : l.canonPart "elements" = some (.array (listToJson as)) :=
      hexact.canonPart_nodes hvalid (by decide) rfl has
    simp [toJson, select, helements]
  -- templates
  · obtain ⟨quasis, hquasis, as, has, rfl⟩ := h
    have htexts : l.canonPart "quasis" = some (.array (quasis.map quasiJson)) :=
      canonPart_of_read hvalid (by decide) rfl hquasis fun x _ _ hread => canon_quasis hread
    have hexpressions : l.canonPart "expressions" = some (.array (listToJson as)) :=
      hexact.canonPart_nodes hvalid (by decide) rfl has
    simp [toJson, select, htexts, hexpressions]
  -- programs
  · obtain ⟨as, has, rfl⟩ := h
    have hbody : l.canonPart "body" = some (.array (listToJson as)) :=
      hexact.canonPart_nodes hvalid (by decide) rfl has
    simp [toJson, select, hbody]
  -- blocks
  · obtain ⟨as, has, rfl⟩ := h
    have hbody : l.canonPart "body" = some (.array (listToJson as)) :=
      hexact.canonPart_nodes hvalid (by decide) rfl has
    simp [toJson, select, hbody]
  -- conditionals, where a branch is written if there is one
  · obtain ⟨a, ha, b, hb, c, hc, rfl⟩ := h
    have htest : l.canonPart "test" = some a.toJson :=
      hexact.canonPart_node hvalid (by decide) rfl ha
    have hconsequent : l.canonPart "consequent" = b.map toJson :=
      hexact.canonPart_branch hvalid (by decide) rfl hb
    have halternate : l.canonPart "alternate" = c.map toJson :=
      hexact.canonPart_branch hvalid (by decide) rfl hc
    cases b <;> cases c <;> simp_all [toJson, select, branchToJson]

/-- Components are written as their canonical form. -/
theorem toJson_of_assemble?_components {kind : String} (hnames : partNames? kind = none)
    {members : List (String × Json)} (hmembers : Fields.Ascending members) {n : Node}
    (h : assemble? kind (.ofMembers members) = some n) :
    n.toJson = .object (Fields.insert "type" (.string kind) members) := by
  unfold assemble? at h
  split at h
  case h_19 =>
    cases h
    rw [toJson]
    exact congrArg Json.object (hmembers.ofList_cons_erase _ _)
  case h_20 => cases h
  all_goals cases hnames

/-- A node is written as the canonical form of the value that it was read from. -/
theorem toJson_eq_canon {nested : Bool} {n : Node} (hj : j.Valid)
    (h : ofJson? nested j = some n) : n.toJson = canon (.node nested) j := by
  induction hk : sizeOf j using Nat.strongRecOn generalizing nested j n with
  | ind k ih =>
    -- The nodes inside are read from smaller values.
    have hexact : Exact (sizeOf j) := fun x hlt hx nested m hm => (ih _ (hk ▸ hlt) hx hm rfl).symm
    rw [ofJson?_eq] at h
    obtain ⟨s, hs, h⟩ := Option.bind_eq_some_iff.mp h
    cases hnames : partNames? s.kind with
    | some names =>
      have hl : layout? (.node nested) j = some ⟨s.toRecord, some s.kind, names, role s.kind⟩ := by
        simp [layout?, hs, hnames]
      rw [canon_of_layout hl]
      exact toJson_of_assemble? hexact (valid_of_stored? hs hj) hnames h
    | none =>
      rw [canon_components hs hnames]
      exact toJson_of_assemble?_components hnames (ascending_of_stored? hs hnames hj) h

end Brace.Node
