/-
# Natural numbers with 53 bits

A natural number that has at most 53 bits without the zeros at its end is kept as a double unless it
is too large (`exists_unpack_ofNat`).  Products and sums of doubles that are such numbers are the
doubles nearest to the products and sums (`ofNat_mul_ofNat`, `ofNat_add_ofNat`).  Every natural
number can be rounded to such a number first (`ofNat_rounded`), which goes along with multiplying by
a power of two (`rounded_mul_two_pow`) and does not see what is less than half of the last bit
(`rounded_add_of_lt`).
-/
import Brace.Proofs.Number.Arithmetic

namespace Brace.Number

open Float.Model Float.Model.UnpackedFloat

/-- A natural number has at most 53 bits, the zeros at its end left out. -/
def IsExact (n : ℕ) : Prop := ∃ m k : ℕ, m < 2 ^ 53 ∧ n = m * 2 ^ k

/-- A number of at most 53 bits is exact. -/
theorem isExact_of_lt {n : ℕ} (h : n < 2 ^ 53) : IsExact n := ⟨n, 0, h, (Nat.mul_one n).symm⟩

/-- A power of two is exact. -/
theorem isExact_two_pow (k : ℕ) : IsExact (2 ^ k) := ⟨1, k, by decide, (Nat.one_mul _).symm⟩

/-- Zeros at the end keep a number exact. -/
theorem IsExact.mul_two_pow {n : ℕ} (h : IsExact n) (j : ℕ) : IsExact (n * 2 ^ j) := by
  obtain ⟨m, k, hm, rfl⟩ := h
  exact ⟨m, k + j, hm, by rw [Nat.mul_assoc, ← pow_add]⟩

/-! ## The parts of exact numbers -/

/-- Every mantissa and exponent within the limits are those of a number. -/
theorem exists_parts {m : ℕ} {e : ℤ} (hlt : m < 2 ^ 53) (hmin : -1074 ≤ e) (hmax : e ≤ 971)
    (hnormal : 2 ^ 52 ≤ m) : ∃ x, parts x = .finite false m e := by
  obtain ⟨n, hn⟩ : ∃ n, n = (e + 1074).toNat * 2 ^ 52 + m := ⟨_, rfl⟩
  have hle : n < 2047 * 2 ^ 52 := by omega
  have hnat : (UInt64.ofNat n).toNat = n :=
    UInt64.toNat_ofNat_of_lt' (hle.trans (by decide))
  have hbits : (Float.ofBits (UInt64.ofNat n)).toBits = UInt64.ofNat n :=
    toBits_ofBits (by rw [hnat]; exact hle.le)
  refine ⟨Float.ofBits (UInt64.ofNat n), ?_⟩
  unfold parts
  simp only [hbits, hnat, Nat.pow_eq]
  rw [if_neg (by omega), if_neg (by omega), decide_eq_false (by omega),
    show 2 ^ 52 + n % 2 ^ 52 = m by omega, show ((n / 2 ^ 52 % 2 ^ 11 : ℕ) : ℤ) - 1075 = e by omega]

/-- A positive number has the unpacked form that its bits say. -/
theorem unpack_of_parts {x : Float} {m : ℕ} {e : ℤ} (h : parts x = .finite false m e)
    (hm : 0 < m) : x.toModel.unpack = .finite .positive m e hm := by
  rw [parts_eq] at h
  generalize x.toModel.unpack = u at h ⊢
  cases u with
  | notANumber => cases h
  | infinity s => cases h
  | zero s =>
    have hzero : 0 = m := (Parts.finite.inj h).2.1
    omega
  | finite s m' e' hm' =>
    obtain ⟨hs, rfl, rfl⟩ := Parts.finite.inj h
    cases s with
    | negative => cases hs
    | positive => rfl

/-- An exact number that is not too large is kept. -/
theorem exists_unpack_ofNat {n : ℕ} (h : IsExact n) (hpos : 0 < n) (hlt : n.log2 < 1024) :
    ∃ (m : ℕ) (e : ℤ) (hm : 0 < m), (ofNat n).toModel.unpack = .finite .positive m e hm ∧
      (m : ℚ) * (2 : ℚ) ^ e = n := by
  obtain ⟨m, k, hm, rfl⟩ := h
  have hm0 : 0 < m := Nat.pos_of_mul_pos_right hpos
  have hlog : m.log2 < 53 := (Nat.log2_lt hm0.ne').mpr hm
  rw [log2_mul_two_pow hm0] at hlt
  -- The mantissa is shifted up to 53 bits.
  obtain ⟨j, hj⟩ : ∃ j, m.log2 + j = 52 := ⟨52 - m.log2, by omega⟩
  have hnormal : 2 ^ 52 ≤ m * 2 ^ j := by
    rw [← hj, pow_add]
    exact Nat.mul_le_mul_right _ (Nat.log2_self_le hm0.ne')
  have hupper : m * 2 ^ j < 2 ^ 53 := by
    rw [show 53 = m.log2 + 1 + j by omega, pow_add]
    exact Nat.mul_lt_mul_of_pos_right Nat.lt_log2_self (Nat.two_pow_pos j)
  have hmj : 0 < m * 2 ^ j := Nat.mul_pos hm0 (Nat.two_pow_pos j)
  have hvalue : ((m * 2 ^ j : ℕ) : ℚ) * (2 : ℚ) ^ ((k : ℤ) - j) = (m * 2 ^ k : ℕ) := by
    rw [zpow_sub₀ (by norm_num), zpow_natCast, zpow_natCast]
    push_cast
    field_simp
  -- There is a double with these parts, and rounding the number gives it.
  obtain ⟨x, hx⟩ := exists_parts hupper (e := (k : ℤ) - j) (by omega) (by omega) hnormal
  have heq : ofNat (m * 2 ^ k) = x := by
    rw [← ofRatio_parts hx hmj, ofNat]
    apply ofRatio_congr Nat.one_pos (scale_den_pos Nat.two_pos Nat.one_pos _)
    rw [scale_ratio Nat.two_pos, Nat.cast_one, div_one, div_one, Nat.cast_ofNat, hvalue]
  exact ⟨m * 2 ^ j, (k : ℤ) - j, hmj, heq ▸ unpack_of_parts hx hmj, hvalue⟩

/-! ## Rounding natural numbers -/

/-- The bits of a large natural number: its length as the exponent, and the rounded quotient as the
mantissa. -/
theorem nearestBits_natural {n : ℕ} (h : 2 ^ 52 ≤ n) :
    nearestBits n 1 = min ((n.log2 + 1022) * 2 ^ 52 + roundQuotient n (2 ^ (n.log2 - 52)))
      (2047 * 2 ^ 52) := by
  have hpos : 0 < n := (Nat.two_pow_pos 52).trans_le h
  have hlog : 52 ≤ n.log2 := (Nat.le_log2 hpos.ne').mpr h
  have hunit : unitExponent n 1 = ((n.log2 - 52 : ℕ) : ℤ) := by
    have hlog2 := log_two_mul_zpow hpos 0
    rw [zpow_zero, mul_one] at hlog2
    rw [unitExponent_eq hpos Nat.one_pos, Nat.cast_one, div_one, hlog2]
    omega
  have hround : roundQuotient (scale 2 n 1 (-((n.log2 - 52 : ℕ) : ℤ))).1
      (scale 2 n 1 (-((n.log2 - 52 : ℕ) : ℤ))).2 = roundQuotient n (2 ^ (n.log2 - 52)) := by
    apply roundQuotient_congr (scale_den_pos (by norm_num) Nat.one_pos _) (Nat.two_pow_pos _)
    rw [scale_ratio (by norm_num), zpow_neg, zpow_natCast, ← div_eq_mul_inv]
    push_cast
    ring
  unfold nearestBits
  simp only [hunit, hround, Nat.pow_eq]
  rw [show (((n.log2 - 52 : ℕ) : ℤ) + 1074).toNat = n.log2 + 1022 by omega]

/-- What is too large for a double is infinite. -/
theorem ofNat_eq_infinity {n : ℕ} (h : 1024 ≤ n.log2) : ofNat n = infinity := by
  have hn : n ≠ 0 := by
    rintro rfl
    simp at h
  have hself := Nat.log2_self_le hn
  have hquotient : 2 ^ 52 ≤ n / 2 ^ (n.log2 - 52) := by
    rw [Nat.le_div_iff_mul_le (Nat.two_pow_pos _), ← pow_add]
    rwa [show 52 + (n.log2 - 52) = n.log2 by omega]
  have hround := hquotient.trans (le_roundQuotient n (2 ^ (n.log2 - 52)))
  have hbits : nearestBits n 1 = 2047 * 2 ^ 52 := by
    rw [nearestBits_natural (((Nat.le_log2 hn).mp (by omega)))]
    omega
  rw [ofNat, ofRatio, if_neg hn, hbits]
  rfl

/-- The multiple of the last of 53 bits that is nearest to a natural number, a tie going to the even
one. -/
def rounded (n : ℕ) : ℕ := roundQuotient n (2 ^ (n.log2 - 52)) * 2 ^ (n.log2 - 52)

/-- A number of at most 53 bits is not rounded. -/
theorem rounded_of_lt {n : ℕ} (h : n < 2 ^ 53) : rounded n = n := by
  have hlog : n.log2 - 52 = 0 := by
    by_cases h0 : n = 0
    · simp [h0]
    · have := (Nat.log2_lt h0).mpr h
      omega
  rw [rounded, hlog]
  simp [roundQuotient, Nat.mod_one]

section

variable {n : ℕ} (h : 2 ^ 52 ≤ n)
include h

/-- The last of 53 bits is the unit of a quotient of 53 bits. -/
theorem quotient_bounds : 2 ^ 52 ≤ n / 2 ^ (n.log2 - 52) ∧ n / 2 ^ (n.log2 - 52) < 2 ^ 53 := by
  have hn : n ≠ 0 := by omega
  have hlog := (Nat.le_log2 hn).mpr h
  constructor
  · rw [Nat.le_div_iff_mul_le (Nat.two_pow_pos _), ← pow_add,
      show 52 + (n.log2 - 52) = n.log2 by omega]
    exact Nat.log2_self_le hn
  · rw [Nat.div_lt_iff_lt_mul (Nat.two_pow_pos _), ← pow_add,
      show 53 + (n.log2 - 52) = n.log2 + 1 by omega]
    exact Nat.lt_log2_self

/-- A large number is rounded to 53 bits, or to the next power of two. -/
theorem rounded_bounds :
    2 ^ 52 ≤ roundQuotient n (2 ^ (n.log2 - 52)) ∧
      roundQuotient n (2 ^ (n.log2 - 52)) ≤ 2 ^ 53 := by
  obtain ⟨hlow, hhigh⟩ := quotient_bounds h
  have hle := roundQuotient_le n (2 ^ (n.log2 - 52))
  have hge := le_roundQuotient n (2 ^ (n.log2 - 52))
  omega

/-- What has been rounded is exact. -/
theorem isExact_rounded : IsExact (rounded n) := by
  obtain ⟨-, hle⟩ := rounded_bounds h
  rcases hle.lt_or_eq with hlt | heq
  · exact ⟨_, _, hlt, rfl⟩
  · rw [rounded, heq]
    exact (isExact_two_pow 53).mul_two_pow _

end

/-- A multiple is divided without rounding. -/
theorem roundQuotient_mul_self (m : ℕ) {d : ℕ} (hd : 0 < d) : roundQuotient (m * d) d = m := by
  apply roundQuotient_of_eq hd
  push_cast
  field_simp

theorem ofNat_congr {n n' : ℕ} (hn : 0 < n) (hn' : 0 < n')
    (h : nearestBits n 1 = nearestBits n' 1) : ofNat n = ofNat n' := by
  rw [ofNat, ofNat, ofRatio, ofRatio, if_neg hn.ne', if_neg hn'.ne', h]

/-- Rounding to 53 bits first makes no difference. -/
theorem ofNat_rounded (n : ℕ) : ofNat (rounded n) = ofNat n := by
  rcases lt_or_ge n (2 ^ 53) with hlt | hge
  · rw [rounded_of_lt hlt]
  · have hn : 2 ^ 52 ≤ n := by omega
    obtain ⟨hlow, hhigh⟩ := rounded_bounds hn
    have hlog : 52 ≤ n.log2 := (Nat.le_log2 (by omega)).mpr hn
    obtain ⟨u, hu⟩ : ∃ u, n.log2 = 52 + u := ⟨n.log2 - 52, by omega⟩
    have hbits := nearestBits_natural hn
    unfold rounded
    rw [hu, Nat.add_sub_cancel_left] at hbits hlow hhigh ⊢
    have hpos := Nat.two_pow_pos u
    generalize roundQuotient n (2 ^ u) = r at hbits hlow hhigh ⊢
    have hr : 0 < r := by omega
    have hge' : r ≤ r * 2 ^ u := Nat.le_mul_of_pos_right r hpos
    refine ofNat_congr (Nat.mul_pos hr hpos) (by omega) ?_
    rw [hbits, nearestBits_natural (hlow.trans hge'), log2_mul_two_pow hr]
    -- The rounded mantissa still has 53 bits, or it has become the next power of two.
    rcases hhigh.lt_or_eq with hlt | rfl
    · have hlog : r.log2 = 52 := (Nat.log2_eq_iff hr.ne').mpr ⟨hlow, hlt⟩
      rw [hlog, Nat.add_sub_cancel_left, roundQuotient_mul_self r hpos]
    · -- A carry leaves the mantissa empty and raises the exponent.
      have hcarry : 2 ^ 53 * 2 ^ u = 2 ^ 52 * 2 ^ (u + 1) := by rw [← pow_add, ← pow_add]; ring_nf
      rw [Nat.log2_two_pow, show 53 + u - 52 = u + 1 by omega, hcarry,
        roundQuotient_mul_self _ (Nat.two_pow_pos _)]
      omega

/-- Rounding goes along with zeros at the end. -/
theorem rounded_mul_two_pow {n : ℕ} (h : 2 ^ 52 ≤ n) (j : ℕ) :
    rounded (n * 2 ^ j) = rounded n * 2 ^ j := by
  have hpos : 0 < n := (Nat.two_pow_pos 52).trans_le h
  have hlog : 52 ≤ n.log2 := (Nat.le_log2 hpos.ne').mpr h
  rw [rounded, rounded, log2_mul_two_pow hpos, show n.log2 + j - 52 = n.log2 - 52 + j by omega,
    pow_add, roundQuotient_mul_right n _ (Nat.two_pow_pos j), Nat.mul_assoc]

/-- Rounding does not fall below `2 ^ 53`. -/
theorem le_rounded {n : ℕ} (h : 2 ^ 53 ≤ n) : 2 ^ 53 ≤ rounded n := by
  have hlog : 53 ≤ n.log2 := (Nat.le_log2 (by omega)).mpr h
  have hlow := (rounded_bounds (by omega : 2 ^ 52 ≤ n)).1
  calc 2 ^ 53 = 2 ^ 52 * 2 ^ 1 := by norm_num
    _ ≤ rounded n := Nat.mul_le_mul hlow (Nat.pow_le_pow_right Nat.two_pos (by omega))

/-- A whole number of units and a rest are rounded as the rest is. -/
theorem roundQuotient_mul_add {q c d : ℕ} (h : d < c) : roundQuotient (q * c + d) c =
    if 2 * d < c then q else if c < 2 * d then q + 1 else q + q % 2 := by
  have hdiv : (q * c + d) / c = q := by
    rw [Nat.add_comm, Nat.add_mul_div_right _ _ (by omega), Nat.div_eq_of_lt h, Nat.zero_add]
  have hmod : (q * c + d) % c = d := by
    rw [Nat.add_comm, Nat.add_mul_mod_self_right, Nat.mod_eq_of_lt h]
  rw [roundQuotient, hdiv, hmod]

/-- What is added within the zeros does not change the length of a number. -/
theorem log2_mul_two_pow_add {n j d : ℕ} (hn : 0 < n) (hd : d < 2 ^ j) :
    (n * 2 ^ j + d).log2 = n.log2 + j := by
  have hpos := Nat.two_pow_pos j
  have hmul : 0 < n * 2 ^ j := Nat.mul_pos hn hpos
  apply (Nat.log2_eq_iff (by omega)).mpr
  constructor
  · rw [pow_add]
    exact (Nat.mul_le_mul_right _ (Nat.log2_self_le hn.ne')).trans (Nat.le_add_right _ _)
  · calc n * 2 ^ j + d < n * 2 ^ j + 2 ^ j := Nat.add_lt_add_left hd _
      _ = (n + 1) * 2 ^ j := (Nat.succ_mul n _).symm
      _ ≤ 2 ^ (n.log2 + 1) * 2 ^ j := Nat.mul_le_mul_right _ Nat.lt_log2_self
      _ = 2 ^ (n.log2 + j + 1) := by rw [← pow_add, Nat.add_right_comm]

/-- What is less than half of the last bit is rounded off. -/
theorem rounded_add_of_lt {n j d : ℕ} (h : IsExact n) (hn : 2 ^ 53 ≤ n) (hd : d < 2 ^ j) :
    rounded (n * 2 ^ j + d) = n * 2 ^ j := by
  have hn0 : 0 < n := by omega
  have hlog : 53 ≤ n.log2 := (Nat.le_log2 hn0.ne').mpr hn
  obtain ⟨m, k, hm, rfl⟩ := h
  have hm0 : 0 < m := Nat.pos_of_mul_pos_right hn0
  have hlog' := log2_mul_two_pow hm0 k
  have hmlog : m.log2 < 53 := (Nat.log2_lt hm0.ne').mpr hm
  -- The number is a multiple of the unit that it is rounded to.
  obtain ⟨s, hs⟩ : ∃ s, k = s + ((m * 2 ^ k).log2 - 52) := ⟨k - ((m * 2 ^ k).log2 - 52), by omega⟩
  obtain ⟨u, hu⟩ : ∃ u, u = (m * 2 ^ k).log2 - 52 + j := ⟨_, rfl⟩
  have hmultiple : m * 2 ^ k * 2 ^ j = m * 2 ^ s * 2 ^ u := by
    rw [Nat.mul_assoc, Nat.mul_assoc, ← pow_add, ← pow_add]
    congr 2
    omega
  have hhalf : 2 * d < 2 ^ u := by
    have : 2 ^ (j + 1) ≤ 2 ^ u := Nat.pow_le_pow_right Nat.two_pos (by omega)
    omega
  rw [rounded, log2_mul_two_pow_add hn0 hd,
    show (m * 2 ^ k).log2 + j - 52 = u by omega, hmultiple, roundQuotient_mul_add (by omega),
    if_pos hhalf]

/-! ## Sums and products -/

/-- How an exact number is unpacked. -/
theorem unpack_ofNat_cases {n : ℕ} (h : IsExact n) :
    (n = 0 ∧ (ofNat n).toModel.unpack = .zero .positive) ∨
      (∃ (m : ℕ) (e : ℤ) (hm : 0 < m), (ofNat n).toModel.unpack = .finite .positive m e hm ∧
        (m : ℚ) * (2 : ℚ) ^ e = n) ∨
      (1024 ≤ n.log2 ∧ (ofNat n).toModel.unpack = .infinity .positive) := by
  rcases Nat.eq_zero_or_pos n with rfl | hpos
  · exact Or.inl ⟨rfl, rfl⟩
  · rcases lt_or_ge n.log2 1024 with hlt | hge
    · exact Or.inr (Or.inl (exists_unpack_ofNat h hpos hlt))
    · refine Or.inr (Or.inr ⟨hge, ?_⟩)
      rw [ofNat_eq_infinity hge]
      rfl

theorem log2_le_of_le {a b : ℕ} (ha : 1024 ≤ a.log2) (h : a ≤ b) : 1024 ≤ b.log2 := by
  have ha0 : a ≠ 0 := by
    rintro rfl
    simp at ha
  exact (Nat.le_log2 (by omega)).mpr (((Nat.le_log2 ha0).mp ha).trans h)

/-- A double is packed as it was unpacked. -/
theorem ofModel_pack_of_unpack {x : Float} {u : UnpackedFloat} (h : x.toModel.unpack = u) :
    Float.ofModel (.pack u) = x := by
  subst h
  apply eq_of_unpack_eq
  exact unpack_pack_unpack (bits x)

/-- Numbers that are too large are all the same double. -/
theorem ofNat_of_log2_le {a b : ℕ} (ha : 1024 ≤ a.log2) (h : a ≤ b) : ofNat a = ofNat b := by
  rw [ofNat_eq_infinity ha, ofNat_eq_infinity (log2_le_of_le ha h)]

/-- The product of exact numbers is the double nearest to the exact product. -/
theorem ofNat_mul_ofNat {a b : ℕ} (ha : IsExact a) (hb : IsExact b) (hpos : 0 < b)
    (hb' : b.log2 < 1024) : ofNat a * ofNat b = ofNat (a * b) := by
  obtain ⟨n, q, hn, hy, hb⟩ := exists_unpack_ofNat hb hpos hb'
  have hmul : ofNat a * ofNat b = .ofModel (.pack (UnpackedFloat.mul .binary64
    (ofNat a).toModel.unpack (ofNat b).toModel.unpack)) := rfl
  rcases unpack_ofNat_cases ha with ⟨rfl, hx⟩ | ⟨m, p, hm, hx, ha⟩ | ⟨hlog, hx⟩
  · rw [Nat.zero_mul, hmul, hy, hx]
    exact ofModel_pack_of_unpack hx
  · exact mul_eq_ofRatio hx hy Nat.one_pos (by rw [ha, hb]; push_cast; ring)
  · rw [← ofNat_of_log2_le hlog (Nat.le_mul_of_pos_right a hpos), hmul, hy, hx]
    exact ofModel_pack_of_unpack hx

/-- The sum of exact numbers is the double nearest to the exact sum. -/
theorem ofNat_add_ofNat {a b : ℕ} (ha : IsExact a) (hb : IsExact b) :
    ofNat a + ofNat b = ofNat (a + b) := by
  have hadd : ofNat a + ofNat b = .ofModel (.pack (UnpackedFloat.add .binary64
    (ofNat a).toModel.unpack (ofNat b).toModel.unpack)) := rfl
  -- Each of the numbers is zero, or kept exactly, or too large for a double.
  rcases unpack_ofNat_cases ha with ⟨rfl, hx⟩ | ⟨m, p, hm, hx, ha⟩ | ⟨hlog, hx⟩
  · -- Nothing is added to the second number, whatever it is.
    have hzero : UnpackedFloat.add .binary64 (.zero .positive) (ofNat b).toModel.unpack =
        (ofNat b).toModel.unpack := by
      rcases unpack_ofNat_cases hb with ⟨-, hy⟩ | ⟨n, q, hn, hy, -⟩ | ⟨-, hy⟩ <;> rw [hy] <;> rfl
    rw [Nat.zero_add, hadd, hx, hzero, ofModel_pack_of_unpack rfl]
  · rcases unpack_ofNat_cases hb with ⟨rfl, hy⟩ | ⟨n, q, hn, hy, hb⟩ | ⟨hlog, hy⟩
    · rw [Nat.add_zero, hadd, hx, hy]
      exact ofModel_pack_of_unpack hx
    · exact add_eq_ofRatio hx hy Nat.one_pos (by rw [ha, hb]; push_cast; ring)
    · rw [← ofNat_of_log2_le hlog (Nat.le_add_left b a), hadd, hx, hy]
      exact ofModel_pack_of_unpack hy
  · rw [← ofNat_of_log2_le hlog (Nat.le_add_right a b), hadd, hx]
    have hinfinite : UnpackedFloat.add .binary64 (.infinity .positive) (ofNat b).toModel.unpack =
        .infinity .positive := by
      rcases unpack_ofNat_cases hb with ⟨-, hy⟩ | ⟨n, q, hn, hy, -⟩ | ⟨-, hy⟩ <;> rw [hy] <;> rfl
    rw [hinfinite]
    exact ofModel_pack_of_unpack hx

end Brace.Number
