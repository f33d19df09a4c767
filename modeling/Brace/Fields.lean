/-
# Finite maps from names

A finite map is a list of pairs of a name and a value in which the names ascend.  Such a list is
the only one with its entries, so two maps with the same look-ups are equal, whatever order
they were filled in.
-/

namespace Brace

/-- A finite map from names, as a list of pairs with ascending names. -/
abbrev Fields (α : Type u) := List (String × α)

namespace Fields

variable {α : Type u} {β : Type v}

/-! ## Looking up and writing -/

/-- The value under a name. -/
def lookup? (name : String) : Fields α → Option α
  | [] => none
  | (key, a) :: rest => if key = name then some a else lookup? name rest

/-- Puts a value under a name, in place of an earlier one. -/
def insert (name : String) (a : α) : Fields α → Fields α
  | [] => [(name, a)]
  | (key, b) :: rest =>
    if name < key then (name, a) :: (key, b) :: rest
    else if name = key then (name, a) :: rest
    else (key, b) :: insert name a rest

/-- The map with the given entries; the last entry under a name counts. -/
def ofList (entries : List (String × α)) : Fields α :=
  entries.foldl (fun fields entry => insert entry.1 entry.2 fields) []

/-- Whether a name has a value. -/
def contains (name : String) (fields : Fields α) : Bool := (lookup? name fields).isSome

/-- The names in ascending order. -/
def names (fields : Fields α) : List String := fields.map (·.1)

/-- The map without a name. -/
def erase (name : String) (fields : Fields α) : Fields α :=
  fields.filter fun entry => entry.1 != name

/-- The names ascend, so each occurs once. -/
def Ascending (fields : Fields α) : Prop :=
  fields.Pairwise fun a b => a.1 < b.1

/-! ## What a look-up finds -/

@[simp]
theorem lookup?_nil (name : String) : lookup? name ([] : Fields α) = none := rfl

/-- Whatever is found is an entry of the map. -/
theorem mem_of_lookup? {name : String} {a : α} {fields : Fields α}
    (h : lookup? name fields = some a) : (name, a) ∈ fields := by
  induction fields with
  | nil => simp at h
  | cons entry rest ih =>
    obtain ⟨key, b⟩ := entry
    unfold lookup? at h
    split at h
    · next hk =>
      cases h
      cases hk
      exact List.mem_cons_self
    · exact List.mem_cons_of_mem _ (ih h)

/-- A written value is found. -/
@[simp]
theorem lookup?_insert_self (name : String) (a : α) (fields : Fields α) :
    lookup? name (insert name a fields) = some a := by
  induction fields with
  | nil => simp [insert, lookup?]
  | cons entry rest ih =>
    obtain ⟨key, b⟩ := entry
    unfold insert
    split
    · simp [lookup?]
    · split
      · simp [lookup?]
      · next hne => simp [lookup?, Ne.symm hne, ih]

/-- Writing under one name leaves the others as they were. -/
theorem lookup?_insert_of_ne {name other : String} (h : name ≠ other) (a : α)
    (fields : Fields α) : lookup? other (insert name a fields) = lookup? other fields := by
  induction fields with
  | nil => simp [insert, lookup?, h]
  | cons entry rest ih =>
    obtain ⟨key, b⟩ := entry
    unfold insert
    split
    · simp [lookup?, h]
    · split
      · next hk =>
        subst hk
        simp [lookup?, h]
      · simp [lookup?, ih]

/-- Writing a value twice is writing it once. -/
theorem insert_insert_self (name : String) (a : α) (fields : Fields α) :
    insert name a (insert name a fields) = insert name a fields := by
  induction fields with
  | nil => simp [insert]
  | cons entry rest ih =>
    obtain ⟨key, b⟩ := entry
    by_cases hlt : name < key
    · simp [insert, hlt]
    · by_cases hk : name = key
      · simp [insert, hk]
      · simp [insert, hlt, hk, ih]

/-- Taking a name away takes what was written under it away. -/
theorem erase_insert_self (name : String) (a : α) (fields : Fields α) :
    erase name (insert name a fields) = erase name fields := by
  induction fields with
  | nil => simp [insert, erase]
  | cons entry rest ih =>
    obtain ⟨key, b⟩ := entry
    by_cases hlt : name < key
    · simp [insert, hlt, erase]
    · by_cases hk : name = key
      · simp [insert, hk, erase]
      · have hcons (l : Fields α) : erase name ((key, b) :: l) = (key, b) :: erase name l := by
          simp [erase, Ne.symm hk]
        rw [insert, if_neg hlt, if_neg hk, hcons, hcons, ih]

/-! ## The order of the names -/

/-- Putting a value under a name adds nothing else. -/
theorem mem_of_mem_insert {name : String} {a : α} {fields : Fields α} {entry : String × α}
    (h : entry ∈ insert name a fields) : entry = (name, a) ∨ entry ∈ fields := by
  induction fields with
  | nil => exact Or.inl (List.mem_singleton.mp h)
  | cons first rest ih =>
    obtain ⟨key, b⟩ := first
    unfold insert at h
    split at h
    · exact List.mem_cons.mp h
    · split at h
      · rcases List.mem_cons.mp h with rfl | hr
        · exact Or.inl rfl
        · exact Or.inr (List.mem_cons_of_mem _ hr)
      · rcases List.mem_cons.mp h with rfl | hr
        · exact Or.inr List.mem_cons_self
        · rcases ih hr with rfl | hr
          · exact Or.inl rfl
          · exact Or.inr (List.mem_cons_of_mem _ hr)

@[simp]
theorem ascending_nil : Ascending ([] : Fields α) := List.Pairwise.nil

/-- The names still ascend when a value has been put under one. -/
theorem Ascending.insert {fields : Fields α} (h : Ascending fields) (name : String) (a : α) :
    Ascending (Fields.insert name a fields) := by
  induction fields with
  | nil => exact List.pairwise_singleton ..
  | cons first rest ih =>
    obtain ⟨key, b⟩ := first
    obtain ⟨hfirst, hrest⟩ := List.pairwise_cons.mp h
    unfold Fields.insert
    split
    · next hlt =>
      refine List.pairwise_cons.mpr ⟨fun entry he => ?_, h⟩
      rcases List.mem_cons.mp he with rfl | he
      · exact hlt
      · exact String.lt_trans hlt (hfirst entry he)
    · next hlt =>
      split
      · next heq =>
        subst heq
        exact List.pairwise_cons.mpr ⟨hfirst, hrest⟩
      · next hne =>
        refine List.pairwise_cons.mpr ⟨fun entry he => ?_, ih hrest⟩
        rcases mem_of_mem_insert he with rfl | he
        · exact Std.lt_of_le_of_ne (String.not_lt.mp hlt) (Ne.symm hne)
        · exact hfirst entry he

/-- A map that is filled entry by entry has ascending names. -/
theorem ascending_ofList (entries : List (String × α)) : Ascending (ofList entries) := by
  have fill (fields : Fields α) (h : Ascending fields) :
      Ascending (entries.foldl (fun fields entry => insert entry.1 entry.2 fields) fields) := by
    induction entries generalizing fields with
    | nil => exact h
    | cons entry rest ih => exact ih _ (h.insert entry.1 entry.2)
  exact fill [] ascending_nil

/-- Taking a name away leaves the others in order. -/
theorem Ascending.erase {fields : Fields α} (h : Ascending fields) (name : String) :
    Ascending (Fields.erase name fields) := h.sublist List.filter_sublist

/-! ## Maps and their look-ups -/

theorem lookup?_append (name : String) (fields rest : Fields α) :
    lookup? name (fields ++ rest) = (lookup? name fields).or (lookup? name rest) := by
  induction fields with
  | nil => rfl
  | cons entry fields ih =>
    obtain ⟨key, a⟩ := entry
    simp only [List.cons_append, lookup?, ih]
    split <;> rfl

/-- Among entries of a map that is filled entry by entry, the last one under a name is found. -/
@[simp]
theorem lookup?_ofList (name : String) (entries : List (String × α)) :
    lookup? name (ofList entries) = lookup? name entries.reverse := by
  have fill (fields : Fields α) :
      lookup? name (entries.foldl (fun fields entry => insert entry.1 entry.2 fields) fields) =
        (lookup? name entries.reverse).or (lookup? name fields) := by
    induction entries generalizing fields with
    | nil => rfl
    | cons entry rest ih =>
      obtain ⟨key, a⟩ := entry
      rw [List.foldl_cons, ih, List.reverse_cons, lookup?_append, Option.or_assoc]
      congr 1
      by_cases hk : key = name
      · simp [hk, lookup?]
      · simp [lookup?_insert_of_ne hk, lookup?, hk]
  rw [ofList, fill []]
  simp

/-- A map without a name has the other names of the map. -/
theorem lookup?_erase (name other : String) (fields : Fields α) :
    lookup? name (erase other fields) = if name = other then none else lookup? name fields := by
  induction fields with
  | nil => simp [erase]
  | cons entry rest ih =>
    obtain ⟨key, a⟩ := entry
    by_cases hk : key = other
    · have : erase other ((key, a) :: rest) = erase other rest := by simp [erase, hk]
      rw [this, ih]
      by_cases hn : name = other
      · simp [hn]
      · simp [hn, lookup?, hk, Ne.symm hn]
    · have : erase other ((key, a) :: rest) = (key, a) :: erase other rest := by simp [erase, hk]
      rw [this]
      by_cases hkn : key = name
      · simp [lookup?, hkn, show name ≠ other from hkn ▸ hk]
      · simp [lookup?, hkn, ih]

/-- Where each name occurs once, every entry is found. -/
theorem lookup?_eq_some_iff {fields : List (String × α)}
    (h : fields.Pairwise fun a b => a.1 ≠ b.1) {name : String} {a : α} :
    lookup? name fields = some a ↔ (name, a) ∈ fields := by
  refine ⟨mem_of_lookup?, fun hmem => ?_⟩
  induction fields with
  | nil => cases hmem
  | cons entry rest ih =>
    obtain ⟨key, b⟩ := entry
    obtain ⟨hfirst, hrest⟩ := List.pairwise_cons.mp h
    rcases List.mem_cons.mp hmem with heq | hmem
    · cases heq
      simp [lookup?]
    · rw [lookup?, if_neg (hfirst _ hmem)]
      exact ih hrest hmem

theorem Ascending.pairwise_ne {fields : Fields α} (h : Ascending fields) :
    fields.Pairwise fun a b => a.1 ≠ b.1 := by
  refine List.Pairwise.imp (fun {a b} hlt he => ?_) h
  exact String.lt_irrefl b.1 (he ▸ hlt)

/-- The entries of a map can be searched from either end. -/
theorem Ascending.lookup?_reverse {fields : Fields α} (h : Ascending fields) (name : String) :
    lookup? name fields.reverse = lookup? name fields := by
  have hreverse : fields.reverse.Pairwise fun a b => a.1 ≠ b.1 :=
    List.pairwise_reverse.mpr (h.pairwise_ne.imp Ne.symm)
  ext a
  rw [lookup?_eq_some_iff hreverse, lookup?_eq_some_iff h.pairwise_ne, List.mem_reverse]

/-- Two maps with the same look-ups are equal. -/
theorem Ascending.ext {fields fields' : Fields α} (h : Ascending fields) (h' : Ascending fields')
    (heq : ∀ name, lookup? name fields = lookup? name fields') : fields = fields' := by
  have hmem (entry : String × α) : entry ∈ fields ↔ entry ∈ fields' := by
    rw [← lookup?_eq_some_iff h.pairwise_ne, heq, lookup?_eq_some_iff h'.pairwise_ne]
  have hnodup {l : Fields α} (hl : Ascending l) : l.Nodup :=
    hl.pairwise_ne.imp fun hne he => hne (congrArg (·.1) he)
  exact ((List.perm_ext_iff_of_nodup (hnodup h) (hnodup h')).mpr hmem).eq_of_pairwise
    (fun a b _ _ hab hba => absurd (String.lt_trans hab hba) (String.lt_irrefl _)) h h'

theorem Ascending.ofList_cons_erase {fields : Fields α} (h : Ascending fields) (name : String)
    (a : α) : ofList ((name, a) :: Fields.erase name fields) = Fields.insert name a fields := by
  refine (ascending_ofList _).ext (h.insert name a) fun other => ?_
  rw [lookup?_ofList, List.reverse_cons, lookup?_append, (h.erase name).lookup?_reverse,
    lookup?_erase]
  by_cases hname : name = other
  · subst hname
    simp [lookup?, lookup?_insert_self]
  · simp [lookup?, lookup?_insert_of_ne hname, hname, Ne.symm hname]

end Fields

end Brace
