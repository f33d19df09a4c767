/-
# Products and sums of doubles

A product or a sum is computed exactly and packed into 64 bits.  Packing shifts the mantissa to 53
bits, rounds what is shifted out and shifts once more if a carry has made the mantissa too long.
The bits are those that `nearestBits` computes in one step (`toNat_pack_round_eq`), so the product
and the sum of positive numbers are the doubles nearest to the exact ones (`mul_eq_ofRatio`,
`add_eq_ofRatio`).
-/
import Brace.Proofs.Number.Unpacked

namespace Brace.Number

open Float.Model Float.Model.UnpackedFloat

/-! ## Rounding an extended mantissa -/

theorem shiftRight_succ (em : ExtendedMantissa) (k : ℕ) :
    em >>> (k + 1) = (em >>> k).shiftRightOne := rfl

/-- The bits that are shifted out of a mantissa: the last one, and whether any before it was set. -/
theorem shiftRight_eq (m k : ℕ) :
    (⟨m, false, false⟩ : ExtendedMantissa) >>> (k + 1) =
      ⟨m / 2 ^ (k + 1), m / 2 ^ k % 2 != 0, m % 2 ^ k != 0⟩ := by
  induction k with
  | zero =>
    show ExtendedMantissa.shiftRightOne ⟨m, false, false⟩ = _
    simp [ExtendedMantissa.shiftRightOne, Nat.mod_one]
  | succ k ih =>
    have hsticky : (m / 2 ^ k % 2 != 0 || m % 2 ^ k != 0) = (m % 2 ^ (k + 1) != 0) := by
      have hpos := Nat.two_pow_pos k
      rw [Nat.mod_pow_succ, Bool.eq_iff_iff]
      simp
      omega
    rw [shiftRight_succ, ih, ExtendedMantissa.shiftRightOne, hsticky, Nat.div_div_eq_div_mul,
      ← pow_succ]

/-- A shifted mantissa is rounded as the quotient by a power of two. -/
theorem roundedMantissa_shiftRight (m k : ℕ) :
    ((⟨m, false, false⟩ : ExtendedMantissa) >>> k).roundedMantissa =
      roundQuotient m (2 ^ k) := by
  cases k with
  | zero =>
    show m = roundQuotient m 1
    simp [roundQuotient, Nat.mod_one]
  | succ k =>
    have hpos := Nat.two_pow_pos k
    have hlt := Nat.mod_lt m hpos
    have hmod : m % 2 ^ (k + 1) = m % 2 ^ k + 2 ^ k * (m / 2 ^ k % 2) := Nat.mod_pow_succ
    have hdouble : 2 ^ (k + 1) = 2 * 2 ^ k := pow_succ' 2 k
    rw [shiftRight_eq, roundQuotient]
    -- The last bit says on which side of a half the rest is, the others whether it is on neither.
    rcases Nat.mod_two_eq_zero_or_one (m / 2 ^ k) with hbit | hbit
    · rw [hbit] at hmod ⊢
      rw [if_pos (by omega)]
      cases (m % 2 ^ k != 0) <;> rfl
    · rw [hbit] at hmod ⊢
      rw [if_neg (by omega)]
      by_cases hzero : m % 2 ^ k = 0
      · rw [if_neg (by omega), hzero]
        rfl
      · rw [if_pos (by omega), bne_iff_ne.mpr hzero]
        rfl

/-! ## Rounding a multiple of a power of two -/

theorem targetExponent_eq (m : ℕ) (e : ℤ) :
    Format.binary64.targetExponent (totalExponent m e) = max (m.log2 + e - 52) (-1074) := by
  simp only [Format.targetExponent, totalExponent, Format.mantissaBits, Format.minExponent]
  norm_num
  omega

/-- A mantissa of 53 bits stays as it is. -/
theorem shiftToTargetExponent_of_lt {m : ℕ} {e : ℤ} (hm : m < 2 ^ 53) (he : -1074 ≤ e) :
    shiftToTargetExponent .binary64 m e .exact = (⟨m, false, false⟩, e) := by
  have hlog : m.log2 ≤ 52 := by
    by_cases h : m = 0
    · simp [h]
    · exact Nat.lt_succ_iff.mp ((Nat.log2_lt h).mpr hm)
  have hshift : (max ((m.log2 : ℤ) + e - 52) (-1074) - e).toNat = 0 := by omega
  rw [shiftToTargetExponent]
  simp only [targetExponent_eq, shiftToExponent, hshift]
  simp
  rfl

/-- A carry out of the mantissa raises the exponent. -/
theorem shiftToTargetExponent_carry {e : ℤ} (he : -1074 ≤ e) :
    shiftToTargetExponent .binary64 (2 ^ 53) e .exact = (⟨2 ^ 52, false, false⟩, e + 1) := by
  have hshift : (max (((2 ^ 53 : ℕ).log2 : ℤ) + e - 52) (-1074) - e).toNat = 1 := by
    rw [Nat.log2_two_pow]
    omega
  rw [shiftToTargetExponent]
  simp only [targetExponent_eq, shiftToExponent, hshift]
  rfl

/-! ## Packing -/

/-- Without a sign, the bits are the exponent field in front of the mantissa field. -/
theorem toNat_packComponents_positive (e : BitVec 11) (m : BitVec 52) :
    (packComponents .binary64 .positive e m).toNat = e.toNat * 2 ^ 52 + m.toNat := by
  have hm := m.isLt
  simp only [packComponents, Sign.toBitVec, BitVec.toNat_append]
  rw [← Nat.shiftLeft_add_eq_or_of_lt hm, Nat.shiftLeft_eq]
  simp

/-- A packed positive number has its exponent field and its mantissa side by side; if the field is
too large, it is infinite. -/
theorem toNat_pack_finite {m : ℕ} {e : ℤ} (hm : 0 < m) (hlt : m < 2 ^ 53) (hmin : -1074 ≤ e)
    (hnormal : e = -1074 ∨ 2 ^ 52 ≤ m) :
    (UnpackedFloat.pack .binary64 (.finite .positive m e hm)).toNat =
      min ((e + 1074).toNat * 2 ^ 52 + m) (2047 * 2 ^ 52) := by
  have hbias : (e + (Format.binary64.exponentBias : ℤ) +
      (Format.binary64.mantissaBitsWithoutImplicit : ℤ)).toNat = (e + 1075).toNat := by
    show (e + 1023 + 52).toNat = _
    omega
  -- A mantissa with all 53 bits has its first bit left out and counted in the exponent.
  have hlog : m.log2 + 1 = Format.binary64.mantissaBits ↔ 2 ^ 52 ≤ m := by
    show m.log2 + 1 = 53 ↔ _
    have hupper := (Nat.log2_lt hm.ne').mpr hlt
    rw [← Nat.le_log2 hm.ne']
    omega
  rw [UnpackedFloat.pack]
  simp only [hbias, hlog]
  -- Too large an exponent makes an infinity; otherwise the number is normal or subnormal.
  split
  · next h =>
    have h : 2048 ≤ (e + 1075).toNat + 1 := h
    rw [packedInfinity, toNat_packComponents_positive]
    simp
    omega
  · next h =>
    have h : ¬ 2048 ≤ (e + 1075).toNat + 1 := h
    split
    · rw [toNat_packComponents_positive]
      simp
      omega
    · rw [toNat_packComponents_positive]
      simp
      omega

/-- Rounding a multiple of a power of two rounds its mantissa once. -/
theorem toNat_pack_roundWithAccuracy {m : ℕ} {e t : ℤ}
    (ht : Format.binary64.targetExponent (totalExponent m e) = t) (het : e ≤ t)
    (hmin : -1074 ≤ t) (hle : roundQuotient m (2 ^ (t - e).toNat) ≤ 2 ^ 53)
    (hnormal : t = -1074 ∨ 2 ^ 52 ≤ roundQuotient m (2 ^ (t - e).toNat)) :
    (UnpackedFloat.pack .binary64 (roundWithAccuracy .binary64 .positive m e .exact)).toNat =
      min ((t + 1074).toNat * 2 ^ 52 + roundQuotient m (2 ^ (t - e).toNat)) (2047 * 2 ^ 52) := by
  have hshift : shiftToTargetExponent .binary64 m e .exact =
      ((⟨m, false, false⟩ : ExtendedMantissa) >>> (t - e).toNat, t) := by
    have hexponent : e + ((t - e).toNat : ℤ) = t := by omega
    rw [shiftToTargetExponent, ht, shiftToExponent, hexponent]
    rfl
  have hround := roundedMantissa_shiftRight m (t - e).toNat
  rw [roundWithAccuracy, hshift]
  dsimp only
  generalize ((⟨m, false, false⟩ : ExtendedMantissa) >>> (t - e).toNat).roundedMantissa = r
    at hround ⊢
  rw [← hround] at hle hnormal ⊢
  -- Rounding up can carry into a new bit, and then the exponent is raised.
  by_cases hr : r < 2 ^ 53
  · rw [shiftToTargetExponent_of_lt hr hmin]
    dsimp only
    split
    · next h =>
      have hpack : (UnpackedFloat.pack .binary64 (.zero .positive)).toNat = 0 := rfl
      rw [hpack]
      omega
    · next h => exact toNat_pack_finite (Nat.pos_of_ne_zero h) hr hmin hnormal
  · obtain rfl : r = 2 ^ 53 := by omega
    rw [shiftToTargetExponent_carry hmin]
    dsimp only
    rw [dif_neg (by decide), toNat_pack_finite (by decide) (by decide) (by omega)
      (Or.inr (by decide))]
    omega

/-! ## The nearest double -/

/-- A quotient is rounded to no less than its whole part. -/
theorem le_roundQuotient (num den : ℕ) : num / den ≤ roundQuotient num den := by
  unfold roundQuotient
  simp only
  split
  · exact le_refl _
  · split <;> omega

/-- A positive mantissa has a positive value. -/
theorem multiple_pos {m : ℕ} (hm : 0 < m) (e : ℤ) : (0 : ℚ) < m * (2 : ℚ) ^ e :=
  mul_pos (by exact_mod_cast hm) (zpow_pos (by norm_num) e)

/-- A positive quotient has a positive numerator. -/
theorem num_pos_of_ratio {num den : ℕ} {q : ℚ} (h : (num : ℚ) / den = q) (hq : 0 < q) :
    0 < num := by
  by_contra h0
  rw [Nat.eq_zero_of_not_pos h0, Nat.cast_zero, zero_div] at h
  exact hq.ne h

/-- The logarithm of a multiple of a power of two. -/
theorem log_two_mul_zpow {m : ℕ} (hm : 0 < m) (e : ℤ) :
    Int.log 2 ((m : ℚ) * (2 : ℚ) ^ e) = m.log2 + e := by
  have h2 : (0 : ℚ) < (2 : ℚ) ^ e := zpow_pos (by norm_num) e
  apply log_two_eq
  · rw [zpow_add₀ (by norm_num)]
    exact mul_le_mul_of_nonneg_right (zpow_log2_le hm) h2.le
  · rw [add_right_comm, zpow_add₀ (by norm_num)]
    exact mul_lt_mul_of_pos_right (lt_zpow_log2 m) h2

/-- A multiple of a power of two with enough bits, or of the smallest power, is rounded to the
nearest double. -/
theorem toNat_pack_roundWithAccuracy_eq {num den m : ℕ} {e : ℤ} (hm : 0 < m) (hd : 0 < den)
    (h : (num : ℚ) / den = m * (2 : ℚ) ^ e) (he : 52 ≤ m.log2 ∨ e ≤ -1074) :
    (UnpackedFloat.pack .binary64 (roundWithAccuracy .binary64 .positive m e .exact)).toNat =
      nearestBits num den := by
  have hn : 0 < num := num_pos_of_ratio h (multiple_pos hm e)
  -- The exponent of the last bit of the double, which is also the one to which the model shifts.
  obtain ⟨t, ht⟩ : ∃ t, t = max ((m.log2 : ℤ) + e - 52) (-1074) := ⟨_, rfl⟩
  have hunit : unitExponent num den = t := by
    rw [unitExponent_eq hn hd, h, log_two_mul_zpow hm, ht]
  obtain ⟨k, hk⟩ : ∃ k : ℕ, t = e + k := ⟨(t - e).toNat, by omega⟩
  have hshift : (t - e).toNat = k := by omega
  -- Rounding the quotient in units of the last bit is rounding what is shifted out of the mantissa.
  have hround : roundQuotient (scale 2 num den (-t)).1 (scale 2 num den (-t)).2 =
      roundQuotient m (2 ^ k) := by
    apply roundQuotient_congr (scale_den_pos (by norm_num) hd _) (Nat.two_pow_pos _)
    rw [scale_ratio (by norm_num), h, mul_assoc, Nat.cast_ofNat, ← zpow_add₀ (by norm_num), hk,
      show e + -(e + (k : ℤ)) = -k by ring, zpow_neg, zpow_natCast, ← div_eq_mul_inv]
    push_cast
    rfl
  -- Unless the number is subnormal, 53 bits of the mantissa are kept.
  have hlower : t = -1074 ∨ 2 ^ 52 ≤ m / 2 ^ k := by
    by_cases hmin : t = -1074
    · exact Or.inl hmin
    · refine Or.inr ((Nat.le_div_iff_mul_le (Nat.two_pow_pos k)).mpr ?_)
      rw [← pow_add]
      exact (Nat.pow_le_pow_right Nat.two_pos (by omega)).trans (Nat.log2_self_le hm.ne')
  have hupper : m / 2 ^ k < 2 ^ 53 := by
    apply (Nat.div_lt_iff_lt_mul (Nat.two_pow_pos k)).mpr
    rw [← pow_add]
    exact Nat.lt_log2_self.trans_le (Nat.pow_le_pow_right Nat.two_pos (by omega))
  have hle := roundQuotient_le m (2 ^ k)
  have hge := le_roundQuotient m (2 ^ k)
  rw [toNat_pack_roundWithAccuracy (ht ▸ targetExponent_eq m e) (by omega) (by omega)
    (by rw [hshift]; omega) (by rw [hshift]; omega)]
  unfold nearestBits
  simp only [hunit, hround, hshift, Nat.pow_eq]

/-- A shift adds to the binary logarithm. -/
theorem log2_mul_two_pow {m : ℕ} (hm : 0 < m) (k : ℕ) : (m * 2 ^ k).log2 = m.log2 + k := by
  apply (Nat.log2_eq_iff (Nat.mul_pos hm (Nat.two_pow_pos k)).ne').mpr
  rw [add_right_comm, pow_add, pow_add]
  exact ⟨Nat.mul_le_mul_right _ (Nat.log2_self_le hm.ne'),
    Nat.mul_lt_mul_of_pos_right Nat.lt_log2_self (Nat.two_pow_pos k)⟩

/-- The same holds where there are too few bits, which are filled up first. -/
theorem toNat_pack_round_eq {num den m : ℕ} {e : ℤ} (hm : 0 < m) (hd : 0 < den)
    (h : (num : ℚ) / den = m * (2 : ℚ) ^ e) :
    (UnpackedFloat.pack .binary64 (UnpackedFloat.round .binary64 .positive m e)).toNat =
      nearestBits num den := by
  obtain ⟨k, hk⟩ : ∃ k : ℕ, (e - max ((m.log2 : ℤ) + e - 52) (-1074)).toNat = k := ⟨_, rfl⟩
  have hround : UnpackedFloat.round .binary64 .positive m e =
      roundWithAccuracy .binary64 .positive (m <<< k) (e - k) .exact := by
    rw [UnpackedFloat.round, targetExponent_eq, decreaseExponent, hk]
  have hlog : (m * 2 ^ k).log2 = m.log2 + k := log2_mul_two_pow hm k
  rw [hround, Nat.shiftLeft_eq]
  apply toNat_pack_roundWithAccuracy_eq (Nat.mul_pos hm (Nat.two_pow_pos k)) hd
  · rw [h, zpow_sub₀ (by norm_num), zpow_natCast]
    push_cast
    field_simp
  · rw [hlog]
    omega

/-! ## Sums and products -/

/-- A positive number that is unpacked has a mantissa and an exponent within the limits. -/
theorem limits_of_unpack {x : Float} {m : ℕ} {e : ℤ} {hm : 0 < m}
    (h : x.toModel.unpack = .finite .positive m e hm) :
    m < 2 ^ 53 ∧ -1074 ≤ e ∧ (e = -1074 ∨ 2 ^ 52 ≤ m) := by
  have hparts : parts x = .finite false m e := by rw [parts_eq, h]; rfl
  obtain ⟨hmin, -, hlt, hnormal, -⟩ := bits_of_parts hparts
  exact ⟨hlt, hmin, hnormal⟩

/-- A double with the bits nearest to a quotient is the double nearest to it. -/
theorem eq_ofRatio_of_toNat_bits {x : Float} {num den : ℕ} (hn : 0 < num)
    (h : (bits x).toNat = nearestBits num den) : x = ofRatio num den := by
  rw [ofRatio, if_neg hn.ne', ← h, show (bits x).toNat = x.toBits.toNat from rfl,
    UInt64.ofNat_toNat, Float.ofBits_toBits]

/-- The product of two positive numbers is the double nearest to the exact product. -/
theorem mul_eq_ofRatio {x y : Float} {m n : ℕ} {p q : ℤ} {hm : 0 < m} {hn : 0 < n}
    (hx : x.toModel.unpack = .finite .positive m p hm)
    (hy : y.toModel.unpack = .finite .positive n q hn) {num den : ℕ} (hd : 0 < den)
    (h : (num : ℚ) / den = m * (2 : ℚ) ^ p * (n * (2 : ℚ) ^ q)) : x * y = ofRatio num den := by
  obtain ⟨-, -, hp⟩ := limits_of_unpack hx
  obtain ⟨-, -, hq⟩ := limits_of_unpack hy
  have hmn : 0 < m * n := Nat.mul_pos hm hn
  have h' : (num : ℚ) / den = (m * n : ℕ) * (2 : ℚ) ^ (p + q) := by
    rw [h, zpow_add₀ (by norm_num)]
    push_cast
    ring
  -- The product of the mantissas has at least as many bits as either of them.
  have hbits : 52 ≤ (m * n).log2 ∨ p + q ≤ -1074 := by
    rw [Nat.le_log2 hmn.ne']
    rcases hp with rfl | hp
    · rcases hq with rfl | hq
      · exact Or.inr (by norm_num)
      · exact Or.inl (hq.trans (Nat.le_mul_of_pos_left n hm))
    · exact Or.inl (hp.trans (Nat.le_mul_of_pos_right m hn))
  apply eq_ofRatio_of_toNat_bits (num_pos_of_ratio h' (multiple_pos hmn _))
  show (UnpackedFloat.pack .binary64 (UnpackedFloat.mul .binary64 x.toModel.unpack
    y.toModel.unpack)).toNat = _
  rw [hx, hy]
  exact toNat_pack_roundWithAccuracy_eq hmn hd h' hbits

theorem two_zpow_eq {p r : ℤ} (h : r ≤ p) : (2 : ℚ) ^ p = 2 ^ (p - r).toNat * 2 ^ r := by
  rw [← zpow_natCast, ← zpow_add₀ (by norm_num)]
  congr 1
  omega

/-- Two positive numbers are added over the smaller of their exponents, and then rounded once. -/
theorem add_finite {m n : ℕ} {p q : ℤ} (hm : 0 < m) (hn : 0 < n) :
    UnpackedFloat.add .binary64 (.finite .positive m p hm) (.finite .positive n q hn) =
      UnpackedFloat.round .binary64 .positive
        (m * 2 ^ (p - min p q).toNat + n * 2 ^ (q - min p q).toNat) (min p q) := by
  generalize hj : (p - min p q).toNat = j
  generalize hk : (q - min p q).toNat = k
  have hsum : 0 < m * 2 ^ j + n * 2 ^ k := Nat.add_pos_left (Nat.mul_pos hm (Nat.two_pow_pos j)) _
  have hpos : compare ((m * 2 ^ j : ℕ) + (n * 2 ^ k : ℕ) : ℤ) 0 = .gt := by
    rw [Int.compare_eq_gt]
    exact_mod_cast hsum
  rw [UnpackedFloat.add]
  simp only [decreaseExponent, hj, hk, Nat.shiftLeft_eq, Sign.apply, UnpackedFloat.normalize, hpos]
  rfl

/-- The sum of two positive numbers is the double nearest to the exact sum. -/
theorem add_eq_ofRatio {x y : Float} {m n : ℕ} {p q : ℤ} {hm : 0 < m} {hn : 0 < n}
    (hx : x.toModel.unpack = .finite .positive m p hm)
    (hy : y.toModel.unpack = .finite .positive n q hn) {num den : ℕ} (hd : 0 < den)
    (h : (num : ℚ) / den = m * (2 : ℚ) ^ p + n * (2 : ℚ) ^ q) : x + y = ofRatio num den := by
  have hadd := add_finite (p := p) (q := q) hm hn
  have hp := two_zpow_eq (min_le_left p q)
  have hq := two_zpow_eq (min_le_right p q)
  generalize (p - min p q).toNat = j at hadd hp
  generalize (q - min p q).toNat = k at hadd hq
  have hsum : 0 < m * 2 ^ j + n * 2 ^ k := Nat.add_pos_left (Nat.mul_pos hm (Nat.two_pow_pos j)) _
  have h' : (num : ℚ) / den = (m * 2 ^ j + n * 2 ^ k : ℕ) * (2 : ℚ) ^ min p q := by
    rw [h, hp, hq]
    push_cast
    ring
  apply eq_ofRatio_of_toNat_bits (num_pos_of_ratio h' (multiple_pos hsum _))
  show (UnpackedFloat.pack .binary64 (UnpackedFloat.add .binary64 x.toModel.unpack
    y.toModel.unpack)).toNat = _
  rw [hx, hy, hadd]
  exact toNat_pack_round_eq hsum hd h'

end Brace.Number
