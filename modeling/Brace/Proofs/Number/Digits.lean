/-
# Rounding after every digit

A literal in base 2, 8 or 16 is read digit by digit, and the number is rounded after every digit.
Nothing is lost below `2 ^ 53`.  Behind it a digit is less than half of the last bit kept and never
counts by itself: the literal is the double nearest to the digits up to there, with zeros for the
others (`Radix.radixValue_eq`).

This is the double nearest to the whole literal, unless the digits kept lie halfway between two
doubles, the lower one even, and a digit other than zero follows (`toNumber_radix`,
`toNumber_radix_tie`).
-/
import Brace.Regex.Builtin
import Brace.Value.Number
import Brace.Proofs.Number.Exact
import Mathlib.Data.Nat.Digits.Defs

namespace Brace.Number

/-! ## Halfway between two doubles -/

/-- A number of 54 bits that ends in `01`, with zeros behind it.  It lies halfway between two
doubles and is rounded down, to the even one. -/
def HalvesDown (n : ℕ) : Prop :=
  ∃ q h : ℕ, n = (4 * q + 1) * 2 ^ h ∧ 2 ^ 53 ≤ 4 * q + 1 ∧ 4 * q + 1 < 2 ^ 54

/-- Exact numbers that are not too large are different doubles. -/
theorem ofNat_injective {a b : ℕ} (ha : IsExact a) (hb : IsExact b) (ha0 : 0 < a) (hb0 : 0 < b)
    (ha' : a.log2 < 1024) (hb' : b.log2 < 1024) (h : ofNat a = ofNat b) : a = b := by
  obtain ⟨m, e, hm, hx, ha⟩ := exists_unpack_ofNat ha ha0 ha'
  obtain ⟨m', e', hm', hy, hb⟩ := exists_unpack_ofNat hb hb0 hb'
  rw [h, hy] at hx
  cases hx
  rw [ha] at hb
  exact_mod_cast hb

/-- What is left below the last of 53 bits is less than this bit, also with further bits. -/
theorem rest_add_lt (n u : ℕ) {j t : ℕ} (ht : t < 2 ^ j) :
    n % 2 ^ (u + 1) * 2 ^ j + t < 2 ^ (u + 1 + j) := by
  have hmod : n % 2 ^ (u + 1) < 2 ^ (u + 1) := Nat.mod_lt _ (Nat.two_pow_pos _)
  calc n % 2 ^ (u + 1) * 2 ^ j + t < n % 2 ^ (u + 1) * 2 ^ j + 2 ^ j := Nat.add_lt_add_left ht _
    _ = (n % 2 ^ (u + 1) + 1) * 2 ^ j := (Nat.succ_mul _ _).symm
    _ ≤ 2 ^ (u + 1) * 2 ^ j := Nat.mul_le_mul_right _ hmod
    _ = 2 ^ (u + 1 + j) := (pow_add ..).symm

/-- Neighbouring multiples of the last of 53 bits are different doubles. -/
theorem ofNat_ne_ofNat_succ {m k : ℕ} (hlow : 2 ^ 52 ≤ m) (hhigh : m + 1 < 2 ^ 53)
    (hk : 52 + k < 1024) : ofNat (m * 2 ^ k) ≠ ofNat ((m + 1) * 2 ^ k) := by
  have hpos := Nat.two_pow_pos k
  have hlog {q : ℕ} (h1 : 2 ^ 52 ≤ q) (h2 : q < 2 ^ 53) : (q * 2 ^ k).log2 < 1024 := by
    have hlog : q.log2 = 52 := (Nat.log2_eq_iff (by omega)).mpr ⟨h1, h2⟩
    rw [log2_mul_two_pow (by omega)]
    omega
  intro h
  have heq := ofNat_injective ⟨m, k, by omega, rfl⟩ ⟨m + 1, k, hhigh, rfl⟩
    (Nat.mul_pos (by omega) hpos) (Nat.mul_pos (by omega) hpos) (hlog hlow (by omega))
    (hlog (by omega) hhigh) h
  have := Nat.eq_of_mul_eq_mul_right hpos heq
  omega

section

variable {n u : ℕ} (hn : 2 ^ 53 ≤ n) (hu : n.log2 = 53 + u)
include hn hu

/-- A number halves down if the bits that are rounded off are exactly a half and the last bit kept
is zero. -/
theorem halvesDown_iff :
    HalvesDown n ↔ n % 2 ^ (u + 1) = 2 ^ u ∧ n / 2 ^ (u + 1) % 2 = 0 := by
  have hpos := Nat.two_pow_pos u
  have hdouble : 2 ^ (u + 1) = 2 * 2 ^ u := pow_succ' 2 u
  constructor
  -- The number is an odd multiple of half a unit, and the unit follows from its length.
  · rintro ⟨q, h, rfl, hlow, hhigh⟩
    have hlog : (4 * q + 1).log2 = 53 := (Nat.log2_eq_iff (by omega)).mpr ⟨hlow, hhigh⟩
    rw [log2_mul_two_pow (by omega), hlog] at hu
    obtain rfl : h = u := by omega
    have heq : (4 * q + 1) * 2 ^ h = 2 ^ h + 2 * q * 2 ^ (h + 1) := by
      rw [hdouble]
      ring
    rw [heq, Nat.add_mul_mod_self_right, Nat.add_mul_div_right _ _ (by omega),
      Nat.mod_eq_of_lt (by omega), Nat.div_eq_of_lt (by omega)]
    omega
  · rintro ⟨hmod, hdiv⟩
    obtain ⟨hlow, hhigh⟩ := quotient_bounds (by omega : 2 ^ 52 ≤ n)
    rw [show n.log2 - 52 = u + 1 by omega] at hlow hhigh
    have hsum := Nat.mod_add_div n (2 ^ (u + 1))
    obtain ⟨q, hq⟩ : ∃ q, n / 2 ^ (u + 1) = 2 * q := ⟨n / 2 ^ (u + 1) / 2, by omega⟩
    rw [hmod, hq] at hsum
    refine ⟨q, u, ?_, by omega, by omega⟩
    rw [← hsum, hdouble]
    ring

/-- The last of the 53 bits of a number has the same place relative to it, whatever bits follow. -/
theorem rounded_mul_two_pow_add {j t : ℕ} (ht : t < 2 ^ j) : rounded (n * 2 ^ j + t) =
    roundQuotient (n / 2 ^ (u + 1) * 2 ^ (u + 1 + j) + (n % 2 ^ (u + 1) * 2 ^ j + t))
      (2 ^ (u + 1 + j)) * 2 ^ (u + 1 + j) := by
  have hsum : n * 2 ^ j + t =
      n / 2 ^ (u + 1) * 2 ^ (u + 1 + j) + (n % 2 ^ (u + 1) * 2 ^ j + t) := by
    nth_rewrite 1 [← Nat.div_add_mod n (2 ^ (u + 1))]
    ring
  rw [rounded, log2_mul_two_pow_add (by omega) ht, show n.log2 + j - 52 = u + 1 + j by omega, hsum]

/-- Bits behind a number make no difference, unless it lies halfway between two doubles and is
rounded down. -/
theorem rounded_add_of_not {j t : ℕ} (ht : t < 2 ^ j) (h : ¬(HalvesDown n ∧ 0 < t)) :
    rounded (n * 2 ^ j + t) = rounded (n * 2 ^ j) := by
  have hposj := Nat.two_pow_pos j
  have hunit : 2 ^ (u + 1 + j) = 2 * (2 ^ u * 2 ^ j) := by ring
  have hrest := rest_add_lt n u ht
  rw [halvesDown_iff hn hu] at h
  have hzero := rounded_mul_two_pow_add hn hu hposj
  simp only [Nat.add_zero] at hzero
  rw [hzero, rounded_mul_two_pow_add hn hu ht, roundQuotient_mul_add hrest,
    roundQuotient_mul_add (by omega)]
  clear hzero
  generalize n / 2 ^ (u + 1) = whole at h ⊢
  generalize n % 2 ^ (u + 1) = rest at hrest h ⊢
  congr 1
  -- Below and above the half the bits behind do not count; at the half there are none, or the
  -- number is rounded up anyway.
  rcases lt_trichotomy rest (2 ^ u) with hlt | rfl | hgt
  · have hle : (rest + 1) * 2 ^ j ≤ 2 ^ u * 2 ^ j := Nat.mul_le_mul_right _ hlt
    rw [Nat.succ_mul] at hle
    rw [if_pos (by omega), if_pos (by omega)]
  · rcases Nat.eq_zero_or_pos t with rfl | hpos
    · rw [Nat.add_zero]
    · rw [if_neg (by omega), if_pos (by omega), if_neg (by omega), if_neg (by omega)]
      omega
  · have hlt : 2 ^ u * 2 ^ j < rest * 2 ^ j := Nat.mul_lt_mul_of_pos_right hgt hposj
    rw [if_neg (by omega), if_pos (by omega), if_neg (by omega), if_pos (by omega)]

/-- A number halfway between two doubles that is rounded down is rounded up with further bits. -/
theorem rounded_of_halvesDown (h : HalvesDown n) :
    rounded n = n / 2 ^ (u + 1) * 2 ^ (u + 1) ∧ ∀ {j t : ℕ}, t < 2 ^ j → 0 < t →
      rounded (n * 2 ^ j + t) = (n / 2 ^ (u + 1) + 1) * 2 ^ (u + 1 + j) := by
  obtain ⟨hmod, hdiv⟩ := (halvesDown_iff hn hu).mp h
  have hpos := Nat.two_pow_pos u
  have hdouble : 2 ^ (u + 1) = 2 * 2 ^ u := pow_succ' 2 u
  constructor
  · have hzero := rounded_mul_two_pow_add hn hu (Nat.two_pow_pos 0)
    simp only [Nat.add_zero, pow_zero, Nat.mul_one] at hzero
    rw [hzero, hmod, roundQuotient_mul_add (by omega), if_neg (by omega), if_neg (by omega), hdiv,
      Nat.add_zero]
  · intro j t ht ht0
    have hunit : 2 ^ (u + 1 + j) = 2 * (2 ^ u * 2 ^ j) := by ring
    have hrest := rest_add_lt n u ht
    rw [rounded_mul_two_pow_add hn hu ht, roundQuotient_mul_add hrest, hmod, if_neg (by omega),
      if_pos (by omega)]

/-- Zeros at the end do not change whether a number halves down. -/
theorem halvesDown_mul_two_pow_iff (j : ℕ) : HalvesDown (n * 2 ^ j) ↔ HalvesDown n := by
  have hge : n ≤ n * 2 ^ j := Nat.le_mul_of_pos_right n (Nat.two_pow_pos j)
  have hlog : (n * 2 ^ j).log2 = 53 + (u + j) := by
    rw [log2_mul_two_pow (by omega)]
    omega
  rw [halvesDown_iff hn hu, halvesDown_iff (hn.trans hge) hlog, Nat.add_right_comm, pow_add,
    pow_add 2 u j, Nat.mul_mod_mul_right, Nat.mul_div_mul_right _ _ (Nat.two_pow_pos j),
    Nat.mul_right_cancel_iff (Nat.two_pow_pos j)]

/-- Bits behind a number make a difference for the nearest double only if the number lies halfway
between two doubles, is rounded down, and the upper one is finite. -/
theorem ofNat_mul_two_pow_eq_iff {j t : ℕ} (ht : t < 2 ^ j) :
    ofNat (n * 2 ^ j) = ofNat (n * 2 ^ j + t) ↔
      ¬(HalvesDown n ∧ 0 < t ∧ (n * 2 ^ j + t).log2 < 1024) := by
  -- At a lost tie the two neighbours differ, unless both numbers are too large for a double.
  by_cases htie : HalvesDown n ∧ 0 < t
  · obtain ⟨hdown, hup⟩ := rounded_of_halvesDown hn hu htie.1
    have hlog : (n * 2 ^ j + t).log2 = 53 + u + j := by rw [log2_mul_two_pow_add (by omega) ht, hu]
    have hlog' : (n * 2 ^ j).log2 = 53 + u + j := by rw [log2_mul_two_pow (by omega), hu]
    simp only [htie, hlog, true_and, not_lt]
    rcases lt_or_ge (53 + u + j) 1024 with hlt | hge
    · obtain ⟨hlow, hhigh⟩ := quotient_bounds (by omega : 2 ^ 52 ≤ n)
      obtain ⟨-, heven⟩ := (halvesDown_iff hn hu).mp htie.1
      rw [show n.log2 - 52 = u + 1 by omega] at hlow hhigh
      rw [← ofNat_rounded (n * 2 ^ j), rounded_mul_two_pow (by omega), hdown, Nat.mul_assoc,
        ← pow_add, ← ofNat_rounded (n * 2 ^ j + t), hup ht htie.2]
      exact iff_of_false (ofNat_ne_ofNat_succ hlow (by omega) (by omega)) (by omega)
    · rw [ofNat_eq_infinity (by omega), ofNat_eq_infinity (by omega)]
      exact iff_of_true rfl hge
  · refine iff_of_true ?_ fun h => htie ⟨h.1, h.2.1⟩
    rw [← ofNat_rounded (n * 2 ^ j + t), rounded_add_of_not hn hu ht htie, ofNat_rounded]

end

/-! ## Digits -/

namespace Radix

/-- The bases are powers of two. -/
theorem exists_base_eq (r : Radix) : ∃ k, r.base = 2 ^ k ∧ k ≤ 4 := by
  cases r with
  | binary => exact ⟨1, rfl, by decide⟩
  | octal => exact ⟨3, rfl, by decide⟩
  | hexadecimal => exact ⟨4, rfl, by decide⟩

/-- The whole number that digits spell, the first digit being the highest one. -/
def spelled (r : Radix) (digits : List ℕ) : ℕ := Nat.ofDigits r.base digits.reverse

/-- The whole number that digits spell when every digit that follows a number of at least `2 ^ 53`
is taken as zero. -/
def kept (r : Radix) (digits : List ℕ) : ℕ :=
  digits.foldl (fun n d => n * r.base + if n < 2 ^ 53 then d else 0) 0

variable (r : Radix)

theorem spelled_append (before after : List ℕ) :
    r.spelled (before ++ after) = r.spelled before * r.base ^ after.length + r.spelled after := by
  rw [spelled, List.reverse_append, Nat.ofDigits_append, List.length_reverse, Nat.mul_comm,
    Nat.add_comm]
  rfl

@[simp]
theorem spelled_singleton (d : ℕ) : r.spelled [d] = d := Nat.ofDigits_singleton

/-- One more digit moves the others by a place, and is added as long as nothing has been lost. -/
theorem kept_concat (digits : List ℕ) (d : ℕ) : r.kept (digits ++ [d]) =
    r.kept digits * r.base + if r.kept digits < 2 ^ 53 then d else 0 := by
  rw [kept, List.foldl_append]
  rfl

/-- One more digit multiplies by the base and adds the digit, rounding twice. -/
theorem radixValue_concat (digits : List ℕ) (d : ℕ) : Numeral.radixValue r (digits ++ [d]) =
    Numeral.radixValue r digits * Number.ofNat r.base + Number.ofNat d := by
  rw [Numeral.radixValue, List.foldl_append]
  rfl

/-- The number that digits spell has no more places than digits. -/
theorem spelled_lt {r : Radix} {digits : List ℕ} (h : ∀ d ∈ digits, d < r.base) :
    r.spelled digits < r.base ^ digits.length := by
  have hbase : 1 < r.base := by cases r <;> decide
  have hlt := Nat.ofDigits_lt_base_pow_length hbase (l := digits.reverse) (by simpa using h)
  rwa [List.length_reverse] at hlt

/-- Either nothing is dropped, or the digits that are kept are followed by further ones. -/
theorem kept_cases (digits : List ℕ) :
    r.spelled digits < 2 ^ 53 ∧ r.kept digits = r.spelled digits ∨
    ∃ first rest, digits = first ++ rest ∧ 2 ^ 53 ≤ r.spelled first ∧
      r.kept digits = r.spelled first * r.base ^ rest.length := by
  -- Digits come in at the end, so the induction takes the last one away.
  induction digits using List.reverseRecOn with
  | nil => exact Or.inl ⟨Nat.two_pow_pos 53, rfl⟩
  | append_singleton before d ih =>
    rw [kept_concat]
    obtain ⟨hlt, hkept⟩ | ⟨first, rest, rfl, hge, hkept⟩ := ih
    · have hnext : r.kept before * r.base + (if r.kept before < 2 ^ 53 then d else 0) =
          r.spelled (before ++ [d]) := by
        rw [hkept, if_pos hlt, spelled_append, spelled_singleton]
        simp
      rw [hnext]
      rcases lt_or_ge (r.spelled (before ++ [d])) (2 ^ 53) with hlt' | hge
      · exact Or.inl ⟨hlt', rfl⟩
      · exact Or.inr ⟨before ++ [d], [], by simp, hge, by simp⟩
    · have hpos : 0 < r.base ^ rest.length := Nat.pow_pos (by cases r <;> decide)
      -- Once digits have been dropped the number stays large, and all further ones are dropped.
      have hle : 2 ^ 53 ≤ r.kept (first ++ rest) :=
        hge.trans (hkept ▸ Nat.le_mul_of_pos_right _ hpos)
      refine Or.inr ⟨first, rest ++ [d], by simp, hge, ?_⟩
      rw [if_neg (by omega), hkept, List.length_append, List.length_singleton, pow_succ,
        Nat.mul_assoc, Nat.add_zero]

variable {r} {digits : List ℕ} (hdigits : ∀ d ∈ digits, d < r.base)
include hdigits

/-- Rounding after every digit rounds the digits kept. -/
theorem radixValue_eq : Numeral.radixValue r digits = Number.ofNat (r.kept digits) := by
  obtain ⟨k, hbase, hk⟩ := r.exists_base_eq
  induction digits using List.reverseRecOn with
  | nil => rfl
  | append_singleton before d ih =>
    have hd : d < 2 ^ k := hbase ▸ hdigits d (by simp)
    have hexactBase : IsExact (2 ^ k) := isExact_two_pow k
    have hlog : (2 ^ k).log2 < 1024 := by
      rw [Nat.log2_two_pow]
      omega
    have hexactDigit : IsExact d :=
      isExact_of_lt (hd.trans_le (Nat.pow_le_pow_right Nat.two_pos (by omega)))
    rw [radixValue_concat, ih fun e he => hdigits e (by simp [he]), kept_concat, hbase]
    generalize r.kept before = n
    split
    · next hlt =>
      -- Neither step rounds.
      have hexact := isExact_of_lt hlt
      rw [ofNat_mul_ofNat hexact hexactBase (Nat.two_pow_pos k) hlog,
        ofNat_add_ofNat (hexact.mul_two_pow k) hexactDigit]
    · next hge =>
      -- The product is exact, and the digit is lost against it.
      have hge' : 2 ^ 53 ≤ n := by omega
      have hexact := isExact_rounded (by omega : 2 ^ 52 ≤ n)
      calc Number.ofNat n * Number.ofNat (2 ^ k) + Number.ofNat d
          = Number.ofNat (rounded n) * Number.ofNat (2 ^ k) + Number.ofNat d := by
            rw [ofNat_rounded]
        _ = Number.ofNat (rounded n * 2 ^ k + d) := by
          rw [ofNat_mul_ofNat hexact hexactBase (Nat.two_pow_pos k) hlog,
            ofNat_add_ofNat (hexact.mul_two_pow k) hexactDigit]
        _ = Number.ofNat (rounded n * 2 ^ k) := by
          rw [← ofNat_rounded, rounded_add_of_lt hexact (le_rounded hge') hd]
        _ = Number.ofNat (n * 2 ^ k + 0) := by
          rw [← rounded_mul_two_pow (by omega), ofNat_rounded, Nat.add_zero]

/-- The digits kept lie halfway between two doubles, and digits are dropped that would have raised
them to the upper one, which is finite. -/
def LosesTie (r : Radix) (digits : List ℕ) : Prop :=
  HalvesDown (r.kept digits) ∧ r.kept digits < r.spelled digits ∧ (r.spelled digits).log2 < 1024

/-- Dropping the digits behind `2 ^ 53` is noticed only where it loses a tie. -/
theorem ofNat_kept_eq_iff :
    Number.ofNat (r.kept digits) = Number.ofNat (r.spelled digits) ↔ ¬r.LosesTie digits := by
  obtain ⟨-, hkept⟩ | ⟨first, rest, rfl, hge, hkept⟩ := r.kept_cases digits
  · simp [LosesTie, hkept]
  · obtain ⟨k, hbase, -⟩ := r.exists_base_eq
    have hrest : r.spelled rest < 2 ^ (k * rest.length) := by
      rw [pow_mul, ← hbase]
      exact spelled_lt fun d hd => hdigits d (by simp [hd])
    rw [LosesTie, spelled_append, hkept]
    rw [hbase, ← pow_mul]
    generalize r.spelled first = n at hge ⊢
    generalize r.spelled rest = t at hrest ⊢
    generalize k * rest.length = j at hrest ⊢
    obtain ⟨u, hu⟩ : ∃ u, n.log2 = 53 + u :=
      Nat.exists_eq_add_of_le ((Nat.le_log2 (by omega)).mpr hge)
    rw [halvesDown_mul_two_pow_iff hge hu, ofNat_mul_two_pow_eq_iff hge hu hrest,
      Nat.lt_add_right_iff_pos]

end Radix

/-! ## Literals -/

/-- Digits of a base are less than the base. -/
theorem Radix.lt_base_of_mapM {r : Radix} {cs : List Char} {digits : List ℕ}
    (h : cs.mapM r.digit? = some digits) : ∀ d ∈ digits, d < r.base := by
  induction cs generalizing digits with
  | nil =>
    obtain rfl : [] = digits := Option.some.inj h
    simp
  | cons c cs ih =>
    rw [List.mapM_cons] at h
    simp only [Option.bind_eq_bind, Option.bind_eq_some_iff] at h
    obtain ⟨d, hd, ds, hds, heq⟩ := h
    obtain rfl : d :: ds = digits := Option.some.inj heq
    exact List.forall_mem_cons.mpr ⟨digit?_lt hd, ih hds⟩

/-- A mark with digits of its base behind it is read as these digits. -/
theorem Numeral.readTrimmed?_radix {mark : Char} {cs : List Char} {r : Radix} {digits : List ℕ}
    (hmark : Radix.ofMark? mark = some r) (hcs : cs ≠ [])
    (hdigits : cs.mapM r.digit? = some digits) :
    readTrimmed? ('0' :: mark :: cs) = some (radix r digits) := by
  simp [readTrimmed?, hmark, hcs, hdigits]

/-- A literal in base 2, 8 or 16 counts as the double nearest to the number that the kept digits
spell.  It is the double nearest to the literal, unless a tie is lost. -/
theorem toNumber_radix [Regex.Engine] {s : String} {mark : Char} {cs : List Char} {r : Radix}
    {digits : List ℕ} (htrim : Text.trim s.toList = '0' :: mark :: cs)
    (hmark : Radix.ofMark? mark = some r) (hcs : cs ≠ [])
    (hdigits : cs.mapM r.digit? = some digits) :
    (Value.string s).toNumber = ofNat (r.kept digits) ∧
      ((Value.string s).toNumber = ofNat (r.spelled digits) ↔ ¬r.LosesTie digits) := by
  have hlt := Radix.lt_base_of_mapM hdigits
  have hvalue : (Value.string s).toNumber = ofNat (r.kept digits) := by
    rw [Value.toNumber, ofSpelling, Numeral.read?, htrim,
      Numeral.readTrimmed?_radix hmark hcs hdigits]
    exact Radix.radixValue_eq hlt
  refine ⟨hvalue, ?_⟩
  rw [hvalue]
  exact Radix.ofNat_kept_eq_iff hlt

/-- The digits of 2 ^ 57 + 17 without the last one lie halfway between 2 ^ 57 and 2 ^ 57 + 32, the
double nearest to all of them. -/
theorem toNumber_radix_tie :
    Radix.hexadecimal.LosesTie [2, 0, 0, 0, 0, 0, 0, 0, 0, 0, 0, 0, 0, 1, 1] ∧
      (Value.string "0x200000000000011").toNumber = ofNat (2 ^ 57) ∧
      (Value.string "0x200000000000011").toNumber ≠ ofNat (2 ^ 57 + 17) := by
  have htrim : Text.trim "0x200000000000011".toList = '0' :: 'x' :: "200000000000011".toList := by
    decide +kernel
  have hdigits : "200000000000011".toList.mapM Radix.hexadecimal.digit? =
      some [2, 0, 0, 0, 0, 0, 0, 0, 0, 0, 0, 0, 0, 1, 1] := by decide +kernel
  obtain ⟨hkept, hspelled⟩ := toNumber_radix htrim rfl (by decide) hdigits
  have htie : Radix.hexadecimal.LosesTie [2, 0, 0, 0, 0, 0, 0, 0, 0, 0, 0, 0, 0, 1, 1] :=
    ⟨⟨2 ^ 51, 4, by decide +kernel⟩, by decide +kernel, by decide +kernel⟩
  exact ⟨htie, hkept.trans rfl, fun h => hspelled.mp h htie⟩

end Brace.Number
