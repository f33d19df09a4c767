/-
# Rounding depends on the quotient only

`ofRatio num den` computes on two natural numbers, but the double that it answers depends on their
quotient alone (`ofRatio_congr`): the last mantissa bit stands at a binary logarithm of the quotient
(`unitExponent_eq`), and rounding looks at a quotient too.  A finite double is the one nearest to
its own value (`ofRatio_parts`).
-/
import Brace.Proofs.Number.Bits

namespace Brace.Number

/-! ## Logarithms -/

/-- An integer logarithm is the exponent of the power just below a number. -/
theorem log_eq {b : ℕ} (hb : 1 < b) {q : ℚ} {k : ℤ} (hle : (b : ℚ) ^ k ≤ q)
    (hlt : q < (b : ℚ) ^ (k + 1)) : Int.log b q = k := by
  have hpos : 0 < q := lt_of_lt_of_le (zpow_pos (by exact_mod_cast (by omega : 0 < b)) k) hle
  have h1 := (Int.zpow_le_iff_le_log hb hpos).mp hle
  have h2 := (Int.lt_zpow_iff_log_lt hb hpos).mp hlt
  omega

theorem log_two_eq {q : ℚ} {k : ℤ} (hle : (2 : ℚ) ^ k ≤ q) (hlt : q < (2 : ℚ) ^ (k + 1)) :
    Int.log 2 q = k :=
  log_eq (by norm_num) (by exact_mod_cast hle) (by exact_mod_cast hlt)

/-! ## Scaled quotients -/

/-- Scaling keeps denominators positive. -/
theorem scale_den_pos {base num den : ℕ} (hb : 0 < base) (hd : 0 < den) (e : ℤ) :
    0 < (scale base num den e).2 := by
  unfold scale
  split
  · exact hd
  · exact Nat.mul_pos hd (Nat.pow_pos hb)

/-- Scaling multiplies the quotient by a power of the base. -/
theorem scale_ratio {base : ℕ} (hb : 0 < base) (num den : ℕ) (e : ℤ) :
    ((scale base num den e).1 : ℚ) / (scale base num den e).2 =
      (num : ℚ) / den * (base : ℚ) ^ e := by
  have hb' : (base : ℚ) ≠ 0 := by exact_mod_cast hb.ne'
  unfold scale
  split
  · next he =>
    obtain ⟨n, rfl⟩ := Int.eq_ofNat_of_zero_le he
    simp only [Int.toNat_natCast, Nat.pow_eq, zpow_natCast]
    push_cast
    ring
  · next he =>
    obtain ⟨n, hn⟩ : ∃ n : ℕ, e = -(n : ℤ) := ⟨(-e).toNat, by omega⟩
    subst hn
    simp only [neg_neg, Int.toNat_natCast, Nat.pow_eq, zpow_neg, zpow_natCast]
    push_cast
    rw [div_mul_eq_div_div, div_eq_mul_inv]

/-! ## Rounding a quotient -/

/-- Rounding does not see a common factor. -/
theorem roundQuotient_mul_right (n d : ℕ) {k : ℕ} (hk : 0 < k) :
    roundQuotient (n * k) (d * k) = roundQuotient n d := by
  unfold roundQuotient
  simp only [Nat.mul_div_mul_right n d hk, Nat.mul_mod_mul_right k n d, ← Nat.mul_assoc,
    Nat.mul_lt_mul_right hk]

/-- Rounding a quotient depends on the quotient only. -/
theorem roundQuotient_congr {n d n' d' : ℕ} (hd : 0 < d) (hd' : 0 < d')
    (h : (n : ℚ) / d = (n' : ℚ) / d') : roundQuotient n d = roundQuotient n' d' := by
  have hcross : n * d' = n' * d := by
    rw [div_eq_div_iff (by exact_mod_cast hd.ne') (by exact_mod_cast hd'.ne')] at h
    exact_mod_cast h
  calc roundQuotient n d = roundQuotient (n * d') (d * d') :=
        (roundQuotient_mul_right n d hd').symm
    _ = roundQuotient (n' * d) (d' * d) := by rw [hcross, Nat.mul_comm d d']
    _ = roundQuotient n' d' := roundQuotient_mul_right n' d' hd

/-- A whole number is rounded to itself. -/
theorem roundQuotient_of_eq {n d m : ℕ} (hd : 0 < d) (h : (n : ℚ) / d = m) :
    roundQuotient n d = m := by
  have hone : roundQuotient n d = roundQuotient m 1 :=
    roundQuotient_congr hd Nat.one_pos (by simpa using h)
  rw [hone]
  simp [roundQuotient, Nat.mod_one]

/-! ## The exponent of the last bit -/

theorem zpow_log2_le {n : ℕ} (hn : 0 < n) : (2 : ℚ) ^ (n.log2 : ℤ) ≤ n := by
  rw [zpow_natCast]
  exact_mod_cast Nat.log2_self_le hn.ne'

theorem lt_zpow_log2 (n : ℕ) : (n : ℚ) < (2 : ℚ) ^ ((n.log2 : ℤ) + 1) := by
  rw [← Nat.cast_succ, zpow_natCast]
  exact_mod_cast Nat.lt_log2_self

/-- A quotient lies within a factor of two of the power of two that the lengths of numerator and
denominator suggest. -/
theorem ratio_bounds {num den : ℕ} (hn : 0 < num) (hd : 0 < den) :
    (2 : ℚ) ^ ((num.log2 : ℤ) - den.log2 - 1) ≤ (num : ℚ) / den ∧
      (num : ℚ) / den < (2 : ℚ) ^ ((num.log2 : ℤ) - den.log2 + 1) := by
  have hdq : (0 : ℚ) < den := by exact_mod_cast hd
  have h2 (k : ℤ) : (0 : ℚ) < (2 : ℚ) ^ k := zpow_pos (by norm_num) k
  -- The estimate of the logarithms of numerator and denominator is off by at most one.
  constructor
  · rw [le_div_iff₀ hdq]
    calc (2 : ℚ) ^ ((num.log2 : ℤ) - den.log2 - 1) * den
        ≤ (2 : ℚ) ^ ((num.log2 : ℤ) - den.log2 - 1) * (2 : ℚ) ^ ((den.log2 : ℤ) + 1) :=
          mul_le_mul_of_nonneg_left (lt_zpow_log2 den).le (h2 _).le
      _ = (2 : ℚ) ^ (num.log2 : ℤ) := by
          rw [← zpow_add₀ (by norm_num)]
          congr 1
          ring
      _ ≤ num := zpow_log2_le hn
  · rw [div_lt_iff₀ hdq]
    calc (num : ℚ) < (2 : ℚ) ^ ((num.log2 : ℤ) + 1) := lt_zpow_log2 num
      _ = (2 : ℚ) ^ ((num.log2 : ℤ) - den.log2 + 1) * (2 : ℚ) ^ (den.log2 : ℤ) := by
          rw [← zpow_add₀ (by norm_num)]
          congr 1
          ring
      _ ≤ (2 : ℚ) ^ ((num.log2 : ℤ) - den.log2 + 1) * den :=
          mul_le_mul_of_nonneg_left (zpow_log2_le hd) (h2 _).le

/-- Whether 53 bits suffice for the whole part of a quotient in units of `2 ^ unit`. -/
theorem scale_div_lt_iff {num den : ℕ} (hd : 0 < den) (unit : ℤ) :
    (scale 2 num den (-unit)).1 / (scale 2 num den (-unit)).2 < Nat.pow 2 53 ↔
      (num : ℚ) / den < (2 : ℚ) ^ (unit + 53) := by
  have hpos : 0 < (scale 2 num den (-unit)).2 := scale_den_pos Nat.two_pos hd (-unit)
  have hposq : (0 : ℚ) < (scale 2 num den (-unit)).2 := by exact_mod_cast hpos
  have hcast : (scale 2 num den (-unit)).1 < Nat.pow 2 53 * (scale 2 num den (-unit)).2 ↔
      ((scale 2 num den (-unit)).1 : ℚ) / (scale 2 num den (-unit)).2 < (2 : ℚ) ^ 53 := by
    rw [div_lt_iff₀ hposq]
    norm_cast
  rw [Nat.div_lt_iff_lt_mul hpos, hcast, scale_ratio (by norm_num), Nat.cast_ofNat, zpow_neg,
    ← div_eq_mul_inv, div_lt_iff₀ (zpow_pos (by norm_num) unit), ← zpow_natCast,
    ← zpow_add₀ (by norm_num), add_comm]
  norm_cast

/-- The last bit of a mantissa stands 52 places below the first one. -/
theorem unitExponent_eq {num den : ℕ} (hn : 0 < num) (hd : 0 < den) :
    unitExponent num den = max (Int.log 2 ((num : ℚ) / den) - 52) (-1074) := by
  obtain ⟨hlow, hhigh⟩ := ratio_bounds hn hd
  unfold unitExponent
  simp only
  set estimate : ℤ := (num.log2 : ℤ) - den.log2 - 53 with hestimate
  have hlow' : (2 : ℚ) ^ (estimate + 52) ≤ (num : ℚ) / den := by
    rwa [hestimate, show (num.log2 : ℤ) - den.log2 - 53 + 52 = num.log2 - den.log2 - 1 by ring]
  have hhigh' : (num : ℚ) / den < (2 : ℚ) ^ (estimate + 53 + 1) := by
    rwa [hestimate, show (num.log2 : ℤ) - den.log2 - 53 + 53 + 1 = num.log2 - den.log2 + 1 by ring]
  -- The estimate is too small by one exactly if 53 bits do not suffice for it.
  have hsmall : _ ↔ (num : ℚ) / den < (2 : ℚ) ^ (estimate + 53) := scale_div_lt_iff hd estimate
  congr 1
  split
  · next h =>
    have hlt : (num : ℚ) / den < (2 : ℚ) ^ (estimate + 52 + 1) := by
      rw [add_assoc]
      exact hsmall.mp h
    rw [log_two_eq hlow' hlt]
    ring
  · next h =>
    rw [log_two_eq (not_lt.mp (mt hsmall.mpr h)) hhigh']
    ring

/-! ## The nearest double -/

/-- The nearest bits depend on the quotient only. -/
theorem nearestBits_congr {num den num' den' : ℕ} (hn : 0 < num) (hd : 0 < den) (hn' : 0 < num')
    (hd' : 0 < den') (h : (num : ℚ) / den = (num' : ℚ) / den') :
    nearestBits num den = nearestBits num' den' := by
  have hu : unitExponent num den = unitExponent num' den' := by
    rw [unitExponent_eq hn hd, unitExponent_eq hn' hd', h]
  unfold nearestBits
  simp only [hu]
  have hratio : ((scale 2 num den (-unitExponent num' den')).1 : ℚ) /
      (scale 2 num den (-unitExponent num' den')).2 =
      (scale 2 num' den' (-unitExponent num' den')).1 /
        (scale 2 num' den' (-unitExponent num' den')).2 := by
    rw [scale_ratio (by norm_num), scale_ratio (by norm_num), h]
  rw [roundQuotient_congr (scale_den_pos (by norm_num) hd _) (scale_den_pos (by norm_num) hd' _)
    hratio]

/-- Equal quotients have the same nearest double. -/
theorem ofRatio_congr {num den num' den' : ℕ} (hd : 0 < den) (hd' : 0 < den')
    (h : (num : ℚ) / den = (num' : ℚ) / den') : ofRatio num den = ofRatio num' den' := by
  have hzero : num = 0 ↔ num' = 0 := by
    rw [div_eq_div_iff (by exact_mod_cast hd.ne') (by exact_mod_cast hd'.ne')] at h
    have hcross : num * den' = num' * den := by exact_mod_cast h
    constructor
    · rintro rfl
      rw [Nat.zero_mul] at hcross
      exact (Nat.mul_eq_zero.mp hcross.symm).resolve_right hd.ne'
    · rintro rfl
      rw [Nat.zero_mul] at hcross
      exact (Nat.mul_eq_zero.mp hcross).resolve_right hd'.ne'
  unfold ofRatio
  by_cases hn : num = 0
  · rw [if_pos hn, if_pos (hzero.mp hn)]
  · have hn' : num' ≠ 0 := mt hzero.mpr hn
    rw [if_neg hn, if_neg hn', nearestBits_congr (by omega) hd (by omega) hd' h]

/-! ## Finite doubles -/

/-- The fields of a finite double with a clear sign bit, and its bits put together from them. -/
theorem bits_of_parts {x : Float} {m : ℕ} {e : ℤ} (h : parts x = .finite false m e) :
    -1074 ≤ e ∧ e ≤ 971 ∧ m < 2 ^ 53 ∧ (e = -1074 ∨ 2 ^ 52 ≤ m) ∧
      x.toBits.toNat = (e + 1074).toNat * 2 ^ 52 + m := by
  have hlt : x.toBits.toNat < 2 ^ 64 := x.toBits.toNat_lt
  simp only [parts, Nat.pow_eq] at h
  split at h
  · split at h <;> cases h
  · split at h
    · simp only [Parts.finite.injEq, decide_eq_false_iff_not] at h
      obtain ⟨hs, rfl, rfl⟩ := h
      refine ⟨by omega, by omega, by omega, by omega, by omega⟩
    · simp only [Parts.finite.injEq, decide_eq_false_iff_not] at h
      obtain ⟨hs, rfl, rfl⟩ := h
      refine ⟨by omega, by omega, by omega, by omega, by omega⟩

/-- A finite double with a clear sign bit is the one nearest to its value. -/
theorem ofRatio_parts {x : Float} {m : ℕ} {e : ℤ} (h : parts x = .finite false m e) (hm : 0 < m) :
    ofRatio (scale 2 m 1 e).1 (scale 2 m 1 e).2 = x := by
  obtain ⟨hmin, hmax, hlt, hnormal, hbits⟩ := bits_of_parts h
  have h2 (k : ℤ) : (0 : ℚ) < (2 : ℚ) ^ k := zpow_pos (by norm_num) k
  have hmq : (0 : ℚ) < m := by exact_mod_cast hm
  have hden : 0 < (scale 2 m 1 e).2 := scale_den_pos Nat.two_pos Nat.one_pos e
  have hratio : ((scale 2 m 1 e).1 : ℚ) / (scale 2 m 1 e).2 = m * (2 : ℚ) ^ e := by
    rw [scale_ratio (by norm_num)]
    simp
  have hnum : 0 < (scale 2 m 1 e).1 := by
    by_contra h0
    rw [Nat.eq_zero_of_not_pos h0, Nat.cast_zero, zero_div] at hratio
    exact absurd hratio.symm (mul_pos hmq (h2 e)).ne'
  -- The last bit of the mantissa is the unit that the value is rounded to.
  have hunit : unitExponent (scale 2 m 1 e).1 (scale 2 m 1 e).2 = e := by
    rw [unitExponent_eq hnum hden, hratio]
    have hlog : Int.log 2 ((m : ℚ) * 2 ^ e) = m.log2 + e := by
      apply log_two_eq
      · rw [zpow_add₀ (by norm_num)]
        exact mul_le_mul_of_nonneg_right (zpow_log2_le hm) (h2 e).le
      · rw [add_right_comm, zpow_add₀ (by norm_num)]
        exact mul_lt_mul_of_pos_right (lt_zpow_log2 m) (h2 e)
    have hle : m.log2 < 53 := (Nat.log2_lt hm.ne').mpr hlt
    rw [hlog]
    rcases hnormal with rfl | hnormal
    · omega
    · have := (Nat.le_log2 hm.ne').mpr hnormal
      omega
  -- In this unit the value is a whole number, so that nothing is rounded.
  have hround : roundQuotient (scale 2 (scale 2 m 1 e).1 (scale 2 m 1 e).2 (-e)).1
      (scale 2 (scale 2 m 1 e).1 (scale 2 m 1 e).2 (-e)).2 = m := by
    apply roundQuotient_of_eq (scale_den_pos (by norm_num) hden _)
    rw [scale_ratio (by norm_num), hratio, mul_assoc, Nat.cast_ofNat, ← zpow_add₀ (by norm_num)]
    simp
  have hnearest : nearestBits (scale 2 m 1 e).1 (scale 2 m 1 e).2 = x.toBits.toNat := by
    unfold nearestBits
    simp only [hunit, hround, Nat.pow_eq, hbits]
    omega
  rw [ofRatio, if_neg hnum.ne', hnearest, UInt64.ofNat_toNat, Float.ofBits_toBits]

end Brace.Number
