/-
# The bits of a number

A double keeps the 64 bits that it is made of, unless they encode a value that is not a number:
all of those are one and the same.  So the parts of a double can be read off the bits that it was
made of, and every double is equal to itself but the one that is not a number.
-/
import Brace.Number.Literal
import Brace.Proofs.Node.Regular
import Mathlib

namespace Brace.Number

open Float.Model.UnpackedFloat

/-! ## Doubles and their bits -/

/-- Up to the bits of infinity, bits with a clear sign bit encode a number. -/
theorem isNaNBits_eq_false {b : BitVec 64} (h : b.toNat ≤ 2047 * Nat.pow 2 52) :
    @isNaNBits .binary64 b = false := by
  rw [isNaNBits, decide_eq_false_iff_not]
  rintro ⟨he, hm⟩
  -- With all bits of the exponent set, nothing is left for the fraction below the bound.
  have hexponent : b.toNat / Nat.pow 2 52 % Nat.pow 2 11 = 2047 := by
    have := congrArg BitVec.toNat he
    simpa [unpackExponent, Nat.shiftRight_eq_div_pow] using this
  refine hm (BitVec.eq_of_toNat_eq ?_)
  simp only [unpackMantissa, Nat.pow_eq, Nat.reducePow] at h hexponent ⊢
  simp
  omega

/-- These bits are kept by the double that is made of them. -/
theorem toBits_ofBits {b : UInt64} (h : b.toNat ≤ 2047 * Nat.pow 2 52) :
    (Float.ofBits b).toBits = b := by
  show UInt64.ofBitVec (pack .binary64 (unpack .binary64 b.toBitVec)) = b
  rw [pack_unpack, isNaNBits_eq_false h]
  rfl

/-- A double is equal to itself if it is a number. -/
theorem beq_self {x : Float} (h : parts x ≠ .nan) : (x == x) = true := by
  rw [Float.beq_self_iff]
  rintro rfl
  exact h (by decide)

/-! ## What literals are read as -/

/-- Up to the bits of infinity a double is a number with a clear sign bit. -/
theorem parsed_ofBits {b : UInt64} (h : b.toNat ≤ 2047 * Nat.pow 2 52) :
    Limits.parsed.number (Float.ofBits b) := by
  simp only [Nat.pow_eq, Nat.reducePow, Nat.reduceMul] at h
  show parts (Float.ofBits b) ≠ .nan ∧ SignClear (Float.ofBits b)
  simp only [parts, SignClear, toBits_ofBits h, Nat.pow_eq, Nat.reducePow]
  refine ⟨?_, by omega⟩
  -- The greatest exponent belongs to the infinite number alone.
  split
  · rw [if_pos (by omega)]
    exact nofun
  · split <;> exact nofun

/-- Rounding answers at most the bits of an infinity. -/
theorem nearestBits_le (num den : Nat) : nearestBits num den ≤ 2047 * Nat.pow 2 52 :=
  Nat.min_le_right _ _

theorem toNat_ofNat_nearestBits (num den : Nat) :
    (UInt64.ofNat (nearestBits num den)).toNat = nearestBits num den := by
  have h := nearestBits_le num den
  simp only [Nat.pow_eq, Nat.reducePow, Nat.reduceMul] at h
  exact UInt64.toNat_ofNat_of_lt' (Nat.lt_of_le_of_lt h (by decide))

/-- A quotient is rounded to a number that a source may have. -/
theorem parsed_ofRatio (num den : Nat) : Limits.parsed.number (ofRatio num den) := by
  unfold ofRatio
  split
  · exact parsed_ofBits (Nat.zero_le _)
  · refine parsed_ofBits ?_
    rw [toNat_ofNat_nearestBits]
    exact nearestBits_le num den

/-- A decimal is read as a number with a clear sign bit, perhaps an infinite one. -/
theorem parsed_toFloat (d : Decimal) : Limits.parsed.number d.toFloat := by
  unfold Decimal.toFloat
  simp only
  split
  · exact parsed_ofBits (Nat.zero_le _)
  · split
    · exact parsed_ofBits (by decide)
    · exact parsed_ofRatio _ _

end Brace.Number
