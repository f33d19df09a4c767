/-
# Whole numbers as doubles

A double is finite exactly if its exponent field is not the largest one.  The field does not depend
on the sign, and whole numbers of 64 bits are far from filling it, so every such number is rounded
to a finite double (`isFinite_ofInt`).
-/
import Brace.Proofs.Number.Bits
import Brace.Proofs.Number.Ratio

namespace Brace.Number

open Float.Model.UnpackedFloat

/-! ## The exponent field -/

/-- The exponent field is the eleven bits behind the sign. -/
theorem toNat_unpackExponent (b : BitVec 64) :
    (@unpackExponent .binary64 b).toNat = b.toNat / Nat.pow 2 52 % Nat.pow 2 11 := by
  simp [unpackExponent, Nat.shiftRight_eq_div_pow]

/-- A double is finite unless its exponent field is the largest one. -/
theorem isFinite_iff_exponent (x : Float) :
    isFinite x = true ↔ (@unpackExponent .binary64 x.toBits.toBitVec).toNat ≠ 2047 := by
  rw [toNat_unpackExponent, UInt64.toNat_toBitVec]
  -- The largest exponent is that of the values without parts.
  by_cases h : x.toBits.toNat / Nat.pow 2 52 % Nat.pow 2 11 = 2047
  · have hparts : parts x = .nan ∨ ∃ negative, parts x = .infinite negative := by
      unfold parts
      simp only [if_pos h]
      split
      · exact Or.inr ⟨_, rfl⟩
      · exact Or.inl rfl
    refine iff_of_false ?_ fun hne => hne h
    rcases hparts with hx | ⟨_, hx⟩
    all_goals
      simp [isFinite, hx]
  · have hparts : ∃ negative m e, parts x = .finite negative m e := by
      unfold parts
      simp only [if_neg h]
      split <;> exact ⟨_, _, _, rfl⟩
    obtain ⟨_, _, _, hx⟩ := hparts
    rw [isFinite, hx]
    exact iff_of_true rfl h

/-- The exponent field does not depend on the sign. -/
theorem unpackExponent_neg (u : Float.Model.UnpackedFloat) :
    @unpackExponent .binary64 (pack .binary64 u.neg) = unpackExponent (pack .binary64 u) := by
  cases u with
  | notANumber => rfl
  | infinity s => simp only [neg, pack, packedInfinity, unpackExponent_packComponents]
  | zero s => simp only [neg, pack, packedZero, unpackExponent_packComponents]
  | finite s m e h =>
    simp only [neg, pack]
    split
    · simp only [packedInfinity, unpackExponent_packComponents]
    · split <;> simp only [unpackExponent_packComponents]

/-- The opposite of a finite number is finite. -/
theorem isFinite_neg {x : Float} (h : isFinite x = true) : isFinite (-x) = true := by
  rw [isFinite_iff_exponent] at h ⊢
  have hbits : (-x).toBits.toBitVec =
      pack .binary64 (unpack .binary64 x.toBits.toBitVec).neg := rfl
  rw [hbits, unpackExponent_neg, pack_unpack]
  split
  · next hnan =>
    -- The field of a value that is not a number is the largest one.
    rw [isNaNBits, decide_eq_true_iff] at hnan
    rw [hnan.1] at h
    exact absurd rfl h
  · exact h

/-! ## Whole numbers -/

/-- The units of a quotient below `2 ^ 64` are at most `2 ^ 11`. -/
theorem unitExponent_le {n : ℕ} (hn : 0 < n) (h : n < 2 ^ 64) : unitExponent n 1 ≤ 11 := by
  have hpos : (0 : ℚ) < (n : ℚ) / (1 : ℕ) := by
    rw [Nat.cast_one, div_one]
    exact_mod_cast hn
  have hlt : (n : ℚ) / (1 : ℕ) < ((2 : ℕ) : ℚ) ^ (64 : ℤ) := by
    rw [Nat.cast_one, div_one]
    exact_mod_cast h
  have hlog := (Int.lt_zpow_iff_log_lt Nat.one_lt_two hpos).mp hlt
  rw [unitExponent_eq hn Nat.one_pos]
  omega

/-- A quotient has 53 bits in its own units. -/
theorem scale_unitExponent_lt {num den : ℕ} (hn : 0 < num) (hd : 0 < den) :
    (scale 2 num den (-unitExponent num den)).1 / (scale 2 num den (-unitExponent num den)).2 <
      Nat.pow 2 53 := by
  rw [scale_div_lt_iff hd]
  have hlog := Int.lt_zpow_succ_log_self (b := 2) Nat.one_lt_two ((num : ℚ) / den)
  refine hlog.trans_le (zpow_le_zpow_right₀ (by norm_num) ?_)
  rw [unitExponent_eq hn hd]
  omega

/-- Rounding goes up to the next whole number at most. -/
theorem roundQuotient_le (num den : ℕ) : roundQuotient num den ≤ num / den + 1 := by
  have := Nat.mod_lt (num / den) Nat.two_pos
  unfold roundQuotient
  simp only
  split
  · omega
  · split <;> omega

/-- A number of 64 bits is rounded to a finite one. -/
theorem nearestBits_lt {n : ℕ} (hn : 0 < n) (h : n < 2 ^ 64) :
    nearestBits n 1 < 2047 * Nat.pow 2 52 := by
  have hunit := unitExponent_le hn h
  have hquotient := scale_unitExponent_lt hn Nat.one_pos
  have hround := roundQuotient_le (scale 2 n 1 (-unitExponent n 1)).1
    (scale 2 n 1 (-unitExponent n 1)).2
  have hfield : (unitExponent n 1 + 1074).toNat ≤ 1085 := by omega
  have hsum : (unitExponent n 1 + 1074).toNat * Nat.pow 2 52 +
      roundQuotient (scale 2 n 1 (-unitExponent n 1)).1 (scale 2 n 1 (-unitExponent n 1)).2 <
        2047 * Nat.pow 2 52 := by
    rw [show Nat.pow 2 53 = 2 * Nat.pow 2 52 from rfl] at hquotient
    rw [show Nat.pow 2 52 = 4503599627370496 from rfl] at hquotient ⊢
    omega
  exact (Nat.min_le_left _ _).trans_lt hsum

/-- A whole number of 64 bits is rounded to a finite double. -/
theorem isFinite_ofNat {n : ℕ} (h : n < 2 ^ 64) : isFinite (ofNat n) = true := by
  rw [ofNat, ofRatio]
  split
  · decide
  · next hn =>
    have hlt := nearestBits_lt (Nat.pos_of_ne_zero hn) h
    rw [isFinite_iff_exponent, toNat_unpackExponent, UInt64.toNat_toBitVec,
      toBits_ofBits (by rw [toNat_ofNat_nearestBits]; exact hlt.le), toNat_ofNat_nearestBits]
    simp only [Nat.pow_eq, Nat.reducePow] at hlt ⊢
    omega

theorem isFinite_ofInt {n : ℤ} (h : n.natAbs < 2 ^ 64) : isFinite (ofInt n) = true := by
  rw [ofInt, signed]
  split
  · exact isFinite_neg (isFinite_ofNat h)
  · exact isFinite_ofNat h

end Brace.Number
