/-
# The text of a number

How a decimal is rounded depends on its value only (`Decimal.toFloat_congr`), so the zeros at its
end can be taken off and its digits written around a point.  The shortest decimal of a finite
double reads back as this double, whether it is found on a grid or is the exact one
(`Decimal.toFloat_shortest`), and so does its text (`exists_literal_of_text`).
-/
import Brace.Proofs.Number.Ratio
import Brace.Proofs.Token.Texts

namespace Brace.Number

/-- The characters of a literal without an exponent. -/
def Literal.chars (l : Literal) : List Char :=
  l.whole ++ if l.fraction = [] then [] else '.' :: l.fraction

namespace Decimal

/-! ## Values -/

/-- The number that a decimal stands for. -/
def value (d : Decimal) : ℚ := d.digits * (10 : ℚ) ^ d.exponent

/-- A decimal with digits is positive. -/
theorem value_pos {d : Decimal} (h : 0 < d.digits) : 0 < d.value :=
  mul_pos (by exact_mod_cast h) (zpow_pos (by norm_num) _)

/-- A decimal is zero if its digits are. -/
theorem digits_eq_zero_iff {d : Decimal} : d.digits = 0 ↔ d.value = 0 := by
  constructor
  · intro h
    rw [value, h, Nat.cast_zero, zero_mul]
  · intro h
    by_contra hne
    exact (value_pos (Nat.pos_of_ne_zero hne)).ne' h

/-- The place of the first digit is a logarithm of the value. -/
theorem digitCount_add_exponent {d : Decimal} (h : 0 < d.digits) :
    (digitCount d.digits : ℤ) + d.exponent = Int.log 10 d.value + 1 := by
  have h10 : (0 : ℚ) < (10 : ℚ) ^ d.exponent := zpow_pos (by norm_num) _
  have hpos : 0 < digitCount d.digits := Nat.length_toDigits_pos
  obtain ⟨k, hk⟩ : ∃ k, digitCount d.digits = k + 1 := ⟨digitCount d.digits - 1, by omega⟩
  have hhigh : d.digits < 10 ^ (k + 1) :=
    (Nat.length_toDigits_le_iff (by norm_num) (Nat.succ_pos k)).mp hk.le
  -- The first digit is not zero.
  have hlow : 10 ^ k ≤ d.digits := by
    rcases Nat.eq_zero_or_pos k with rfl | hk0
    · exact h
    · by_contra hlt
      have := (Nat.length_toDigits_le_iff (by norm_num) hk0).mpr (not_le.mp hlt)
      have hlen : (Nat.toDigits 10 d.digits).length = k + 1 := hk
      omega
  have hlog : Int.log 10 d.value = k + d.exponent := by
    apply log_eq (by norm_num)
    · rw [Nat.cast_ofNat, zpow_add₀ (by norm_num), zpow_natCast]
      exact mul_le_mul_of_nonneg_right (by exact_mod_cast hlow) h10.le
    · rw [Nat.cast_ofNat, add_right_comm, zpow_add₀ (by norm_num), ← Nat.cast_succ, zpow_natCast]
      exact mul_lt_mul_of_pos_right (by exact_mod_cast hhigh) h10
  rw [hlog, hk]
  push_cast
  ring

theorem scale_ratio_eq (d : Decimal) :
    ((scale 10 d.digits 1 d.exponent).1 : ℚ) / (scale 10 d.digits 1 d.exponent).2 = d.value := by
  rw [scale_ratio (by norm_num), value]
  simp

/-- Decimals with the same value are rounded to the same double. -/
theorem toFloat_congr {d d' : Decimal} (h : d.value = d'.value) : d.toFloat = d'.toFloat := by
  have hzero : d.digits = 0 ↔ d'.digits = 0 := by
    rw [digits_eq_zero_iff, digits_eq_zero_iff, h]
  unfold toFloat
  simp only
  by_cases h0 : d.digits = 0
  · rw [if_pos (Or.inl h0), if_pos (Or.inl (hzero.mp h0))]
  · have h0' : d'.digits ≠ 0 := mt hzero.mpr h0
    have htop : (digitCount d.digits : ℤ) + d.exponent = digitCount d'.digits + d'.exponent := by
      rw [digitCount_add_exponent (Nat.pos_of_ne_zero h0),
        digitCount_add_exponent (Nat.pos_of_ne_zero h0'), h]
    have hratio : ofRatio (scale 10 d.digits 1 d.exponent).1 (scale 10 d.digits 1 d.exponent).2 =
        ofRatio (scale 10 d'.digits 1 d'.exponent).1 (scale 10 d'.digits 1 d'.exponent).2 := by
      apply ofRatio_congr (scale_den_pos (by norm_num) Nat.one_pos _)
        (scale_den_pos (by norm_num) Nat.one_pos _)
      rw [scale_ratio_eq, scale_ratio_eq, h]
    simp only [h0, h0', false_or, htop, hratio]

/-! ## The exact decimal -/

/-- The exact decimal of a double has its value. -/
theorem value_exact (m : ℕ) (e : ℤ) : (exact m e).value = m * (2 : ℚ) ^ e := by
  unfold exact value
  split
  · next he =>
    obtain ⟨n, rfl⟩ := Int.eq_ofNat_of_zero_le he
    simp only [Int.toNat_natCast, Nat.pow_eq, zpow_natCast, zpow_zero, mul_one]
    push_cast
    rfl
  · next he =>
    obtain ⟨n, hn⟩ : ∃ n : ℕ, e = -(n : ℤ) := ⟨(-e).toNat, by omega⟩
    subst hn
    simp only [neg_neg, Int.toNat_natCast, Nat.pow_eq, zpow_neg, zpow_natCast]
    push_cast
    rw [show (10 : ℚ) ^ n = 5 ^ n * 2 ^ n by rw [← mul_pow]; norm_num]
    field_simp

/-- Zeros at the end do not change a value. -/
theorem value_trim (d : Decimal) : d.trim.value = d.value := by
  fun_induction trim d with
  | case1 d h ih =>
    have hd : d.digits = 10 * (d.digits / 10) := by omega
    rw [ih, value, value]
    conv_rhs => rw [hd]
    rw [zpow_add_one₀ (by norm_num)]
    push_cast
    ring
  | case2 => rfl

/-- Between which powers of ten all doubles are. -/
theorem two_pow_le_ten_pow : 2 ^ 1074 ≤ 10 ^ 324 ∧ 2 ^ 53 * 2 ^ 971 ≤ 10 ^ 309 := by
  decide +kernel

/-- A finite double is far from the decimals that are not rounded. -/
theorem log_value_exact {m : ℕ} {e : ℤ} (hm : 0 < m) (hlt : m < 2 ^ 53) (hmin : -1074 ≤ e)
    (hmax : e ≤ 971) :
    -324 ≤ Int.log 10 (exact m e).value ∧ Int.log 10 (exact m e).value < 309 := by
  have h2 : (0 : ℚ) < (2 : ℚ) ^ e := zpow_pos (by norm_num) e
  have hmq : (0 : ℚ) < m := by exact_mod_cast hm
  have hpos : 0 < (exact m e).value := by
    rw [value_exact]
    exact mul_pos hmq h2
  -- The smallest and the largest double, compared with powers of ten.
  constructor
  · apply (Int.zpow_le_iff_le_log (by norm_num) hpos).mp
    rw [value_exact]
    calc ((10 : ℕ) : ℚ) ^ (-324 : ℤ) ≤ (2 : ℚ) ^ (-1074 : ℤ) := by
          rw [zpow_neg, zpow_neg]
          exact inv_anti₀ (zpow_pos (by norm_num) _) (by exact_mod_cast two_pow_le_ten_pow.1)
      _ ≤ (2 : ℚ) ^ e := zpow_le_zpow_right₀ (by norm_num) hmin
      _ ≤ m * (2 : ℚ) ^ e := le_mul_of_one_le_left h2.le (by exact_mod_cast hm)
  · apply (Int.lt_zpow_iff_log_lt (by norm_num) hpos).mp
    rw [value_exact]
    calc (m : ℚ) * (2 : ℚ) ^ e ≤ m * (2 : ℚ) ^ (971 : ℤ) :=
          mul_le_mul_of_nonneg_left (zpow_le_zpow_right₀ (by norm_num) hmax) hmq.le
      _ < 2 ^ 53 * (2 : ℚ) ^ (971 : ℤ) :=
          mul_lt_mul_of_pos_right (by exact_mod_cast hlt) (zpow_pos (by norm_num) _)
      _ ≤ ((10 : ℕ) : ℚ) ^ (309 : ℤ) := by exact_mod_cast two_pow_le_ten_pow.2

/-- All digits of a finite double read back as the double. -/
theorem toFloat_exact {x : Float} {m : ℕ} {e : ℤ} (h : parts x = .finite false m e) (hm : 0 < m) :
    (exact m e).toFloat = ofRatio (scale 2 m 1 e).1 (scale 2 m 1 e).2 := by
  obtain ⟨hmin, hmax, hlt, -, -⟩ := bits_of_parts h
  obtain ⟨hlow, hhigh⟩ := log_value_exact hm hlt hmin hmax
  have hvalue := value_exact m e
  have hpos : 0 < (exact m e).value := by
    rw [hvalue]
    exact mul_pos (by exact_mod_cast hm) (zpow_pos (by norm_num) e)
  have hdigits : 0 < (exact m e).digits := by
    by_contra h0
    exact hpos.ne' (digits_eq_zero_iff.mp (Nat.eq_zero_of_not_pos h0))
  have htop := digitCount_add_exponent hdigits
  unfold toFloat
  simp only
  rw [if_neg (by omega), if_neg (by omega)]
  apply ofRatio_congr (scale_den_pos (by norm_num) Nat.one_pos _)
    (scale_den_pos (by norm_num) Nat.one_pos _)
  rw [scale_ratio_eq, hvalue, scale_ratio (by norm_num)]
  simp

/-! ## The shortest decimal -/

/-- Whatever is found on a grid reads back. -/
theorem toFloat_of_onGrid? {tie : Tie} {x : Float} {num den : ℕ} {e : ℤ} {d : Decimal}
    (h : onGrid? tie x num den e = some d) : d.toFloat = x := by
  unfold onGrid? at h
  simp only at h
  -- A neighbour on the grid is answered only after it has been read back.
  split at h
  · cases h
  · next hlow _ =>
    obtain rfl := Option.some.inj h
    exact of_decide_eq_true hlow
  · next _ hhigh =>
    obtain rfl := Option.some.inj h
    exact of_decide_eq_true hhigh
  · next hlow hhigh =>
    have hl := of_decide_eq_true hlow
    have hh := of_decide_eq_true hhigh
    split at h
    · obtain rfl := Option.some.inj h
      exact hl
    · split at h
      · obtain rfl := Option.some.inj h
        exact hh
      · split at h <;> obtain rfl := Option.some.inj h
        · exact hl
        · exact hh

/-- The shortest decimal of a finite double reads back as it. -/
theorem toFloat_shortest {x : Float} {m : ℕ} {e : ℤ} (h : parts x = .finite false m e)
    (hm : 0 < m) (tie : Tie) : (shortest tie m e).toFloat = x := by
  unfold shortest
  simp only
  rw [toFloat_congr (value_trim _), ← ofRatio_parts h hm]
  cases hf : List.findSome? _ _ with
  | none => exact toFloat_exact h hm
  | some d =>
    obtain ⟨n, _, hn⟩ := List.exists_of_findSome?_eq_some hf
    exact toFloat_of_onGrid? hn

/-! ## Writing and reading -/

/-- Decimal digits are digits. -/
theorem isDigit_of_mem_toDigits {n : ℕ} : ∀ c ∈ Nat.toDigits 10 n, c.isDigit = true :=
  fun _ hc => Nat.isDigit_of_mem_toDigits (b := 10) (by norm_num) (by norm_num) hc

theorem isDigit_of_mem_zeros {n : ℕ} : ∀ c ∈ List.replicate n '0', c.isDigit = true := by
  intro c hc
  rw [List.eq_of_mem_replicate hc]
  rfl

/-- The literal `l` writes the decimal `d` out: its pieces are the digits in front of the point and
those behind it. -/
structure WrittenAs (d : Decimal) (l : Literal) : Prop where
  /-- The value is kept. -/
  value : l.decimal.value = d.value
  /-- Digits stand in front of the point. -/
  whole : ∀ c ∈ l.whole, c.isDigit = true
  /-- Digits stand behind it. -/
  fraction : ∀ c ∈ l.fraction, c.isDigit = true
  /-- Something stands in front of it. -/
  whole_ne_nil : l.whole ≠ []
  /-- No exponent is needed. -/
  exponent : l.exponent = 0
  /-- The characters are those of the literal. -/
  positional : d.positional = l.chars

/-- Zeros stand behind the digits. -/
theorem writtenAs_of_zeros_behind {d : Decimal} (he : 0 ≤ d.exponent) :
    d.WrittenAs ⟨Nat.toDigits 10 d.digits ++ List.replicate d.exponent.toNat '0', [], 0⟩ where
  value := by
    obtain ⟨n, hn⟩ := Int.eq_ofNat_of_zero_le he
    simp only [Literal.decimal, value, hn, List.append_nil, Nat.ofDigitChars_append,
      Nat.ofDigitChars_ten_toDigits, Nat.ofDigitChars_replicate_zero, Int.toNat_natCast,
      List.length_nil, zpow_natCast]
    push_cast
    ring
  whole := List.forall_mem_append.mpr ⟨isDigit_of_mem_toDigits, isDigit_of_mem_zeros⟩
  fraction := by simp
  whole_ne_nil := by simp [Nat.toDigits_ne_nil]
  exponent := rfl
  positional := by simp [positional, he, Literal.chars]

section

variable {d : Decimal} {n : ℕ}

/-- The point stands between the digits. -/
theorem writtenAs_of_point_between (hn : d.exponent = -(n : ℤ)) (hpos : 0 < n)
    (hlt : n < (Nat.toDigits 10 d.digits).length) :
    d.WrittenAs ⟨(Nat.toDigits 10 d.digits).take ((Nat.toDigits 10 d.digits).length - n),
      (Nat.toDigits 10 d.digits).drop ((Nat.toDigits 10 d.digits).length - n), 0⟩ := by
  set digits := Nat.toDigits 10 d.digits with hdigits
  have hvalue : Nat.ofDigitChars 10 digits 0 = d.digits := Nat.ofDigitChars_ten_toDigits
  have hlen : (digits.drop (digits.length - n)).length = n := by
    rw [List.length_drop]
    omega
  have hdrop : digits.drop (digits.length - n) ≠ [] := by
    rw [← List.length_pos_iff]
    omega
  refine ⟨?_, fun c hc => isDigit_of_mem_toDigits c (List.mem_of_mem_take hc),
    fun c hc => isDigit_of_mem_toDigits c (List.mem_of_mem_drop hc), ?_, rfl, ?_⟩
  · simp only [Literal.decimal, value, hn, hlen, List.take_append_drop, hvalue, zero_sub]
  · rw [← List.length_pos_iff, List.length_take]
    omega
  · simp [positional, hn, hpos.ne', ← hdigits, hlt, Literal.chars, hdrop]

/-- Zeros stand between the point and the digits. -/
theorem writtenAs_of_zeros_between (hn : d.exponent = -(n : ℤ)) (hpos : 0 < n)
    (hle : (Nat.toDigits 10 d.digits).length ≤ n) :
    d.WrittenAs ⟨['0'], List.replicate (n - (Nat.toDigits 10 d.digits).length) '0' ++
      Nat.toDigits 10 d.digits, 0⟩ := by
  set digits := Nat.toDigits 10 d.digits with hdigits
  have hne : digits ≠ [] := Nat.toDigits_ne_nil
  have hlen : (List.replicate (n - digits.length) '0' ++ digits).length = n := by
    rw [List.length_append, List.length_replicate]
    omega
  refine ⟨?_, by simp, List.forall_mem_append.mpr ⟨isDigit_of_mem_zeros, isDigit_of_mem_toDigits⟩,
    by simp, rfl, ?_⟩
  · simp only [Literal.decimal, value, hn, hlen, Nat.ofDigitChars_append,
      Nat.ofDigitChars_replicate_zero, Nat.ofDigitChars_cons, zero_sub, List.cons_append,
      List.nil_append]
    simp [hdigits]
  · simp [positional, hn, hpos.ne', ← hdigits, Nat.not_lt.mpr hle, Literal.chars, hne]

end

/-- Every decimal is written as a literal without an exponent. -/
theorem exists_writtenAs (d : Decimal) : ∃ l, d.WrittenAs l := by
  by_cases he : 0 ≤ d.exponent
  · exact ⟨_, writtenAs_of_zeros_behind he⟩
  · obtain ⟨n, hn⟩ : ∃ n : ℕ, d.exponent = -(n : ℤ) := ⟨(-d.exponent).toNat, by omega⟩
    have hpos : 0 < n := by omega
    rcases Nat.lt_or_ge n (Nat.toDigits 10 d.digits).length with hlt | hle
    · exact ⟨_, writtenAs_of_point_between hn hpos hlt⟩
    · exact ⟨_, writtenAs_of_zeros_between hn hpos hle⟩

end Decimal

theorem not_isDigit_of_mem_delimiters : ∀ c ∈ delimiters, c.isDigit = false :=
  fun c hc => (not_isNameChar_of_mem_delimiters c hc).2.1

/-- A point is not what ends a number. -/
theorem head?_ne_point {rest : List Char} (h : Delimited rest) : rest.head? ≠ some '.' :=
  fun hh => absurd rfl (not_isNameChar_of_mem_delimiters '.' (h '.' hh)).2.2.1

/-- A literal is read up to a delimiter. -/
theorem number_append {l : Literal} (hw : ∀ c ∈ l.whole, c.isDigit = true)
    (hf : ∀ c ∈ l.fraction, c.isDigit = true) (he : l.exponent = 0) {rest : List Char}
    (hr : Delimited rest) : Scan.number (l.chars ++ rest) = (some l, l.chars.length) := by
  obtain ⟨whole, fraction, exponent⟩ := l
  obtain rfl : exponent = 0 := he
  simp only [Literal.chars] at hw hf ⊢
  -- With no fraction there is no point, and what stands behind does not begin with one.
  by_cases hnil : fraction = []
  · subst hnil
    rw [if_pos rfl, List.append_nil, Scan.number]
    simp only [takeWhile_append_of_delimited not_isDigit_of_mem_delimiters hw hr, List.drop_left]
    split
    · exact absurd rfl (head?_ne_point hr)
    · rfl
  · rw [if_neg hnil, List.append_assoc, List.cons_append, Scan.number]
    have hwhole : (whole ++ '.' :: (fraction ++ rest)).takeWhile Char.isDigit = whole := by
      rw [List.takeWhile_append_of_pos hw]
      simp
    have hfraction := takeWhile_append_of_delimited not_isDigit_of_mem_delimiters hf hr
    simp only [hwhole, List.drop_left, hfraction, if_neg (head?_ne_point hr), List.length_append,
      List.length_cons]
    rw [Nat.add_assoc, Nat.add_comm 1]

/-! ## The text of a number -/

/-- A number with a clear sign bit is not negative. -/
theorem parts_of_signClear {x : Float} (hx : SignClear x) :
    parts x = .nan ∨ parts x = .infinite false ∨ ∃ m e, parts x = .finite false m e := by
  have hneg : decide (Nat.pow 2 63 ≤ x.toBits.toNat) = false :=
    decide_eq_false (Nat.not_le.mpr hx)
  simp only [parts, hneg]
  repeat' split
  all_goals simp

/-- A number that can be printed is finite and has no sign. -/
theorem parts_of_printable {x : Float} (hx : Limits.printable.number x) :
    ∃ m e, parts x = .finite false m e := by
  obtain ⟨hfinite, hsign⟩ := hx
  rcases parts_of_signClear hsign with h | h | h
  · rw [isFinite, h] at hfinite
    cases hfinite
  · rw [isFinite, h] at hfinite
    cases hfinite
  · exact h

/-- The text of an infinite number is a word. -/
theorem text_of_not_isFinite {x : Float} (hx : Limits.parsed.number x)
    (hfinite : isFinite x = false) : text x = "inf" := by
  rcases parts_of_signClear hx.2 with h | h | ⟨m, e, h⟩
  · exact absurd h hx.1
  · rw [text, h]
    rfl
  · rw [isFinite, h] at hfinite
    cases hfinite

theorem eq_zero_of_parts {x : Float} {e : ℤ} (h : parts x = .finite false 0 e) :
    x = Float.ofBits 0 := by
  obtain ⟨-, -, -, he, hbits⟩ := bits_of_parts h
  have hzero : x.toBits = 0 := by
    apply UInt64.toNat_inj.mp
    rw [hbits]
    rcases he with rfl | he
    · rfl
    · omega
  rw [← Float.ofBits_toBits x, hzero]

/-- The text of a finite number with a clear sign bit is a literal that is read as this number. -/
theorem exists_literal_of_text {x : Float} (hx : Limits.printable.number x) :
    ∃ l : Literal, (text x).toList = l.chars ∧ (∀ c ∈ l.whole, c.isDigit = true) ∧
      (∀ c ∈ l.fraction, c.isDigit = true) ∧ l.whole ≠ [] ∧ l.exponent = 0 ∧ l.value = x := by
  obtain ⟨m, e, hparts⟩ := parts_of_printable hx
  by_cases hm : m = 0
  · subst hm
    have htext : (text x).toList = ['0'] := by
      simp [text, hparts]
    refine ⟨⟨['0'], [], 0⟩, htext, by simp, by simp, by simp, rfl, ?_⟩
    rw [eq_zero_of_parts hparts]
    rfl
  · have hpos : 0 < m := Nat.pos_of_ne_zero hm
    obtain ⟨l, h⟩ := (Decimal.shortest .up m e).exists_writtenAs
    refine ⟨l, ?_, h.whole, h.fraction, h.whole_ne_nil, h.exponent, ?_⟩
    · simp [text, hparts, hm, h.positional]
    · rw [Literal.value, Decimal.toFloat_congr h.value, Decimal.toFloat_shortest hparts hpos]

end Brace.Number
