/-
# Members under numbers

A list and a text take a number as a position, and a text as one that spells a number; an object
looks for the display text of its key.  The display text of a number is read as this number, up to
the sign of zero, which names the same position.  So the member under a number is the one under the
display text of the number, whatever the value and the number are (`getMember_number`).
-/
import Brace.Value.Member
import Brace.Proofs.Number.Reading

namespace Brace.Value

open Number (parts text ofText?)

/-! ## Positions -/

/-- Infinite and undefined numbers name no position. -/
theorem positionOf?_of_not_finite {x : Float} (h : Number.isFinite x = false) :
    positionOf? x = none := by
  unfold Number.isFinite at h
  unfold positionOf? Number.toNat?
  split at h
  · cases h
  · rfl

/-- Zero names the first position, whatever its sign and exponent are. -/
theorem positionOf?_of_zero {x : Float} {negative : Bool} {e : ℤ}
    (h : parts x = .finite negative 0 e) : positionOf? x = some 0 := by
  have hzero : Number.toNat? x = some 0 := by
    simp only [Number.toNat?, h, Number.scale]
    split <;> simp
  rw [positionOf?, hzero]
  rfl

/-- The display text of a number is read as a number with the same position. -/
theorem exists_ofText?_display (x : Float) :
    ∃ y, ofText? (Number.display x) = some y ∧ positionOf? y = positionOf? x := by
  -- The display text has a form of its own for what is not finite and for zero; any other number is
  -- displayed as it is written.
  cases h : parts x with
  | nan =>
    obtain rfl := Number.parts_eq_nan_iff.mp h
    exact ⟨Number.nan, rfl, rfl⟩
  | infinite negative =>
    -- The words are read as the infinite numbers, which name no position either.
    have hdisplay : Number.display x = if negative then "-Infinity" else "Infinity" := by
      rw [Number.display, h]
    rw [hdisplay, positionOf?_of_not_finite (by rw [Number.isFinite, h])]
    cases negative with
    | false => exact ⟨Number.infinity, by rfl, by rfl⟩
    | true => exact ⟨-Number.infinity, by rfl, by rfl⟩
  | finite negative m e =>
    rcases Nat.eq_zero_or_pos m with rfl | hm
    · -- Both zeros are displayed as the positive one is written.
      have hzero : parts (Float.ofBits 0) = .finite false 0 (-1074) := rfl
      have hdisplay : Number.display x = text (Float.ofBits 0) := by
        simp [Number.display, text, h, hzero]
      refine ⟨Float.ofBits 0, ?_, ?_⟩
      · rw [hdisplay, Number.ofText?_text hzero]
      · rw [positionOf?_of_zero hzero, positionOf?_of_zero h]
    · have hdisplay : Number.display x = text x := by
        simp [Number.display, h, hm.ne']
      exact ⟨x, by rw [hdisplay, Number.ofText?_text h], rfl⟩

/-- The key of the length is not read as a number. -/
theorem display_ne_lengthKey (x : Float) : Number.display x ≠ lengthKey := by
  intro heq
  obtain ⟨y, hy, -⟩ := exists_ofText?_display x
  have hlength : ofText? lengthKey = none := by rfl
  rw [heq, hlength] at hy
  cases hy

/-! ## Members -/

variable [Regex.Engine]

/-- A number and its display text name the same position. -/
theorem position?_display (x : Float) :
    position? (string (Number.display x)) = position? (number x) := by
  obtain ⟨y, hy, hposition⟩ := exists_ofText?_display x
  rw [position?, position?, hy]
  exact hposition

theorem isLengthKey_display (x : Float) :
    isLengthKey (string (Number.display x)) = isLengthKey (number x) := by
  simpa [isLengthKey] using display_ne_lengthKey x

/-- Every value has the same member under a number and under the display text of the number. -/
theorem getMember_number (v : Value) (x : Float) :
    v.getMember (number x) = v.getMember (string (Number.display x)) := by
  cases v with
  | object fields => rfl
  | array items => rw [getMember, getMember, isLengthKey_display, position?_display]
  | string s => rw [getMember, getMember, isLengthKey_display, position?_display]
  | null | boolean | number | pattern | function => rfl

end Brace.Value
