/-
# Sets of characters as tables

A table lists the code points of a set of characters as closed ranges in ascending order.
-/

namespace Brace.Text

/-! ## Ascending ranges -/

/-- Whether ranges ascend from a code point on: none is empty and none overlaps the one before. -/
def ascendsFrom : Nat → List (Nat × Nat) → Bool
  | _, [] => true
  | start, (first, last) :: rest =>
    Nat.ble start first && Nat.ble first last && ascendsFrom (last + 1) rest

/-- Ascending ranges hold no code point below their start. -/
theorem le_of_ascendsFrom {start : Nat} {ranges : List (Nat × Nat)}
    (h : ascendsFrom start ranges = true) : ∀ r ∈ ranges, start ≤ r.1 := by
  induction ranges generalizing start with
  | nil => simp
  | cons r rest ih =>
    obtain ⟨first, last⟩ := r
    simp only [ascendsFrom, Bool.and_eq_true, Nat.ble_eq] at h
    intro s hs
    rcases List.mem_cons.1 hs with rfl | hs
    · exact h.1.1
    · have := ih h.2 s hs
      omega

/-- Searches ascending ranges: the first one that does not end before `n` decides. -/
def search : List (Nat × Nat) → Nat → Bool
  | [], _ => false
  | (first, last) :: rest, n => if n ≤ last then decide (first ≤ n) else search rest n

/-- In ascending ranges the search finds exactly the code points of some range. -/
theorem search_eq_true_iff {start : Nat} {ranges : List (Nat × Nat)} (n : Nat)
    (h : ascendsFrom start ranges = true) :
    search ranges n = true ↔ ∃ r ∈ ranges, r.1 ≤ n ∧ n ≤ r.2 := by
  induction ranges generalizing start with
  | nil => simp [search]
  | cons r rest ih =>
    obtain ⟨first, last⟩ := r
    simp only [ascendsFrom, Bool.and_eq_true] at h
    by_cases hn : n ≤ last
    · have later : ∀ s ∈ rest, ¬ (s.1 ≤ n ∧ n ≤ s.2) := fun s hs => by
        have := le_of_ascendsFrom h.2 s hs
        omega
      simp only [search, hn, if_true, decide_eq_true_eq, List.mem_cons, exists_eq_or_imp, and_true]
      constructor
      · exact Or.inl
      · rintro (hf | ⟨s, hs, hsn⟩)
        · exact hf
        · exact absurd hsn (later s hs)
    · simp [search, hn, ih h.2]

/-! ## Tables -/

/-- A set of characters, given by ascending closed ranges of code points. -/
structure CharTable where
  /-- The ranges, each with its first and its last code point. -/
  ranges : List (Nat × Nat)
  /-- The ranges ascend. -/
  ascending : ascendsFrom 0 ranges = true := by decide +kernel
  deriving DecidableEq, Repr

namespace CharTable

/-- Whether a character belongs to the set. -/
def contains (t : CharTable) (c : Char) : Bool := search t.ranges c.toNat

/-- A character belongs to the set exactly if its code point lies in some range. -/
theorem contains_eq_true_iff (t : CharTable) (c : Char) :
    t.contains c = true ↔ ∃ r ∈ t.ranges, r.1 ≤ c.toNat ∧ c.toNat ≤ r.2 :=
  search_eq_true_iff c.toNat t.ascending

end CharTable

end Brace.Text
