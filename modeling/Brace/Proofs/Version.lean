/-
# Versions and their texts

`Version.Spells` says which texts spell a version: three numbers of 64 bits in decimal digits with
points between them.  A version is read from exactly these texts, apart from white space around
them, and any other text is refused as it was given (`read_eq_ok_iff`, `read_eq_error_iff`).
Writing the version that was read leaves out the zeros in front of its numbers
(`text_of_spells`), so what is written is read as the same version.  Versions are ordered as
triples of natural numbers (`compare_numbers`).  All of it is put together in `read_and_order`.
-/
import Brace.Version
import Brace.Proofs.Number.Reading
import Mathlib.Data.Prod.Lex
import Mathlib.Order.Compare

namespace Brace

/-! ## Digits and white space -/

namespace Text

theorem toNat_of_isDigit {c : Char} (h : c.isDigit = true) : 48 ≤ c.toNat ∧ c.toNat ≤ 57 := by
  simpa [Char.isDigit, UInt32.le_iff_toNat_le] using h

theorem isWhiteSpace_of_isDigit {c : Char} (h : c.isDigit = true) : isWhiteSpace c = false := by
  have hrange := toNat_of_isDigit h
  rw [Bool.eq_false_iff, Ne, isWhiteSpace, CharTable.contains_eq_true_iff]
  simp only [whiteSpace, List.mem_cons, List.not_mem_nil, or_false, exists_eq_or_imp,
    exists_eq_left]
  omega

/-- Nothing is trimmed from a text without white space. -/
theorem trim_of_forall {cs : List Char} (h : ∀ c ∈ cs, isWhiteSpace c = false) : trim cs = cs := by
  have hdrop {ds : List Char} (hds : ∀ c ∈ ds, isWhiteSpace c = false) :
      ds.dropWhile isWhiteSpace = ds := by
    cases ds with
    | nil => rfl
    | cons c ds => rw [List.dropWhile_cons_of_neg (by simp [hds])]
  rw [trim, hdrop h, hdrop (by simpa using h), List.reverse_reverse]

end Text

namespace Version

open Number.Literal (Digits)

/-! ## Three parts -/

/-- Three parts with points between them. -/
def dotted (a b c : List Char) : List Char := ['.'].intercalate [a, b, c]

theorem dotted_eq (a b c : List Char) : dotted a b c = a ++ '.' :: (b ++ '.' :: c) := by
  simp [dotted, List.intercalate]

/-- A text is split at its points as the library splits it. -/
theorem splitPoints_eq (cs : List Char) : splitPoints cs = cs.splitOn '.' := by
  induction cs with
  | nil => rfl
  | cons c cs ih =>
    rw [splitPoints, ih, List.splitOn_cons_eq_if_modifyHead]
    by_cases hc : c = '.'
    · simp [hc]
    · cases h : cs.splitOn '.' with
      | nil => exact (List.splitOn_ne_nil _ _ h).elim
      | cons part parts => simp [hc]

/-- Three parts put together with points are the text they were split from. -/
theorem dotted_of_splitPoints {cs a b c : List Char} (h : splitPoints cs = [a, b, c]) :
    cs = dotted a b c := by
  rw [dotted, ← h, splitPoints_eq, List.intercalate_splitOn]

/-- Digits contain no point, so that the text is split where its parts were put together. -/
theorem splitOn_dotted {a b c : List Char} (ha : Digits a) (hb : Digits b) (hc : Digits c) :
    (dotted a b c).splitOn '.' = [a, b, c] := by
  have hpoint {ds : List Char} (hds : Digits ds) : '.' ∉ ds := fun hmem => nomatch hds _ hmem
  rw [dotted, List.splitOn_intercalate _ _ (by simp)]
  simp [hpoint ha, hpoint hb, hpoint hc]

/-! ## Reading -/

/-- One or more decimal digits that spell a number. -/
structure IsPart (n : ℕ) (cs : List Char) : Prop where
  /-- There is a digit. -/
  ne_nil : cs ≠ []
  /-- There is nothing else. -/
  digits : Digits cs
  /-- The number that the digits spell. -/
  value : Nat.ofDigitChars 10 cs 0 = n

/-- A text spells a version. -/
inductive Spells (v : Version) : List Char → Prop where
  /-- The three numbers with points between them. -/
  | mk {a b c : List Char} (ha : IsPart v.major.toNat a) (hb : IsPart v.minor.toNat b)
      (hc : IsPart v.patch.toNat c) : Spells v (dotted a b c)

/-- A part is read as a number exactly if it spells this number, which then fits into 64 bits. -/
theorem readPart?_eq_some_iff {cs : List Char} {n : UInt64} :
    readPart? cs = some n ↔ IsPart n.toNat cs := by
  unfold readPart?
  split
  · next h =>
    -- A part that is empty or has another character than a digit is refused.
    refine iff_of_false (fun h' => nomatch h') fun hpart => ?_
    simp [hpart.ne_nil] at h
    obtain ⟨c, hc, hdigit⟩ := h
    rw [hpart.digits c hc] at hdigit
    cases hdigit
  · next h =>
    simp at h
    simp only
    constructor
    · intro hsome
      split at hsome
      · obtain rfl := Option.some.inj hsome
        exact ⟨h.1, h.2, UInt64.toNat_ofNatLT.symm⟩
      · cases hsome
    · rintro ⟨-, -, hvalue⟩
      -- The number is below the bound, since it is the one of `n`.
      rw [dif_pos (hvalue ▸ n.toNat_lt_size), Option.some_inj, ← UInt64.toNat_inj,
        UInt64.toNat_ofNatLT, hvalue]

/-- A version is read from the texts that spell it, with white space around them. -/
theorem ofText?_eq_some_iff {s : String} {v : Version} :
    ofText? s = some v ↔ v.Spells (Text.trim s.toList) := by
  unfold ofText?
  constructor
  · intro h
    split at h
    · next a b c hsplit =>
      rw [dotted_of_splitPoints hsplit]
      simp only [seq_eq_bind_map, Option.bind_eq_bind, Option.map_eq_map, Option.bind_eq_some_iff,
        Option.map_eq_some_iff] at h
      -- All three parts have been read.
      obtain ⟨_, ⟨_, ⟨l, ha, rfl⟩, m, hb, rfl⟩, n, hc, rfl⟩ := h
      exact .mk (readPart?_eq_some_iff.mp ha) (readPart?_eq_some_iff.mp hb)
        (readPart?_eq_some_iff.mp hc)
    · cases h
  · intro h
    generalize Text.trim s.toList = cs at h
    obtain ⟨ha, hb, hc⟩ := h
    rw [splitPoints_eq, splitOn_dotted ha.digits hb.digits hc.digits]
    simp [readPart?_eq_some_iff.mpr ha, readPart?_eq_some_iff.mpr hb, readPart?_eq_some_iff.mpr hc]

theorem read_eq_ok_iff {s : String} {v : Version} :
    read s = .ok v ↔ v.Spells (Text.trim s.toList) := by
  rw [← ofText?_eq_some_iff, read]
  cases ofText? s <;> simp

/-- Three parts are the spelling of a version exactly if their numbers have 64 bits. -/
theorem exists_spells_iff {cs : List Char} : (∃ v : Version, v.Spells cs) ↔
    ∃ l m n a b c, cs = dotted a b c ∧ IsPart l a ∧ IsPart m b ∧ IsPart n c ∧
      l < 2 ^ 64 ∧ m < 2 ^ 64 ∧ n < 2 ^ 64 := by
  constructor
  · rintro ⟨v, ha, hb, hc⟩
    exact ⟨_, _, _, _, _, _, rfl, ha, hb, hc, v.major.toNat_lt, v.minor.toNat_lt, v.patch.toNat_lt⟩
  · rintro ⟨l, m, n, a, b, c, rfl, ha, hb, hc, hl, hm, hn⟩
    refine ⟨⟨.ofNatLT l hl, .ofNatLT m hm, .ofNatLT n hn⟩, .mk ?_ ?_ ?_⟩
    · rwa [UInt64.toNat_ofNatLT]
    · rwa [UInt64.toNat_ofNatLT]
    · rwa [UInt64.toNat_ofNatLT]

/-- A text that spells no version is refused, and the error has the text as it was given. -/
theorem read_eq_error_iff {s : String} {e : VersionError} :
    read s = .error e ↔ e = .malformed s ∧ ¬∃ v : Version, v.Spells (Text.trim s.toList) := by
  simp only [← ofText?_eq_some_iff, read]
  cases ofText? s <;> simp [eq_comm]

/-! ## Writing -/

/-- Digits without the zeros in front of the number that they spell. -/
def withoutZeros (cs : List Char) : List Char :=
  if cs.all (· = '0') then ['0'] else cs.dropWhile (· = '0')

/-- A text without the zeros in front of the numbers between its points. -/
def canonical (cs : List Char) : List Char := ['.'].intercalate ((cs.splitOn '.').map withoutZeros)

/-- A single digit is written as it is read. -/
theorem toDigits_of_isDigit {c : Char} (h : c.isDigit = true) :
    c.toNat - 48 < 10 ∧ Nat.toDigits 10 (c.toNat - 48) = [c] := by
  have hrange := Text.toNat_of_isDigit h
  have hlt : c.toNat - 48 < 10 := by omega
  refine ⟨hlt, ?_⟩
  rw [Nat.toDigits_of_lt_base hlt, List.cons.injEq, ← Char.toNat_inj,
    Nat.toNat_digitChar_of_lt_ten hlt]
  exact ⟨by omega, rfl⟩

/-- Digits behind a number that is not zero are written behind the digits of the number. -/
theorem toDigits_ofDigitChars_of_pos {cs : List Char} (h : Digits cs) {n : ℕ} (hn : 0 < n) :
    Nat.toDigits 10 (Nat.ofDigitChars 10 cs n) = Nat.toDigits 10 n ++ cs := by
  induction cs generalizing n with
  | nil => simp [Nat.ofDigitChars_nil]
  | cons c cs ih =>
    obtain ⟨hc, hcs⟩ := List.forall_mem_cons.mp h
    obtain ⟨hlt, hdigit⟩ := toDigits_of_isDigit hc
    calc Nat.toDigits 10 (Nat.ofDigitChars 10 (c :: cs) n)
      _ = Nat.toDigits 10 (10 * n + (c.toNat - 48)) ++ cs := by
        rw [Nat.ofDigitChars_cons]
        exact ih hcs (by omega)
      _ = Nat.toDigits 10 n ++ [c] ++ cs := by
        rw [← Nat.toDigits_append_toDigits (by omega) hn hlt, hdigit]
      _ = Nat.toDigits 10 n ++ c :: cs := by simp

/-- The number that digits spell is written without the zeros in front. -/
theorem toDigits_ofDigitChars {cs : List Char} (h : Digits cs) :
    Nat.toDigits 10 (Nat.ofDigitChars 10 cs 0) = withoutZeros cs := by
  induction cs with
  | nil => rfl
  | cons c cs ih =>
    obtain ⟨hc, hcs⟩ := List.forall_mem_cons.mp h
    -- A zero in front adds nothing to the value and is left out in writing.
    by_cases hzero : c = '0'
    · subst hzero
      rw [Nat.ofDigitChars_cons]
      show Nat.toDigits 10 (Nat.ofDigitChars 10 cs 0) = _
      rw [ih hcs]
      simp [withoutZeros]
    · obtain ⟨hlt, hdigit⟩ := toDigits_of_isDigit hc
      have hpos : 0 < c.toNat - 48 := by
        have hne : c.toNat ≠ 48 := fun he => hzero (Char.toNat_inj.mp he)
        have hrange := Text.toNat_of_isDigit hc
        omega
      -- From the first other digit on, every digit is kept.
      have hfirst : Nat.ofDigitChars 10 (c :: cs) 0 = Nat.ofDigitChars 10 cs (c.toNat - 48) := by
        rw [Nat.ofDigitChars_cons]
        simp
      rw [hfirst, toDigits_ofDigitChars_of_pos hcs hpos, hdigit]
      simp [withoutZeros, hzero]

/-- A version is written as its three numbers with points between them. -/
theorem toList_text (v : Version) : v.text.toList =
    dotted (Nat.toDigits 10 v.major.toNat) (Nat.toDigits 10 v.minor.toNat)
      (Nat.toDigits 10 v.patch.toNat) := by
  simp [text, dotted_eq]

/-- What is written of a version that a text spells is the text without the zeros in front of its
numbers. -/
theorem Spells.text_eq {v : Version} {cs : List Char} (h : v.Spells cs) :
    v.text.toList = canonical cs := by
  obtain ⟨ha, hb, hc⟩ := h
  rw [toList_text, canonical, splitOn_dotted ha.digits hb.digits hc.digits, dotted, ← ha.value,
    ← hb.value, ← hc.value, toDigits_ofDigitChars ha.digits, toDigits_ofDigitChars hb.digits,
    toDigits_ofDigitChars hc.digits]
  rfl

/-- The digits of a number spell it. -/
theorem isPart_toDigits (n : ℕ) : IsPart n (Nat.toDigits 10 n) where
  ne_nil := Nat.toDigits_ne_nil
  digits := fun _ => Nat.isDigit_of_mem_toDigits (by norm_num) (by norm_num)
  value := Nat.ofDigitChars_ten_toDigits

/-- A version is read from what is written of it. -/
theorem read_text (v : Version) : read v.text = .ok v := by
  have hspells : v.Spells v.text.toList := by
    rw [toList_text]
    exact .mk (isPart_toDigits _) (isPart_toDigits _) (isPart_toDigits _)
  -- The text has digits and points only, so trimming leaves it as it is.
  rw [read_eq_ok_iff, Text.trim_of_forall]
  · exact hspells
  · intro c hc
    rw [toList_text, dotted_eq] at hc
    simp only [List.mem_append, List.mem_cons] at hc
    have hdigit {n : ℕ} (h : c ∈ Nat.toDigits 10 n) : Text.isWhiteSpace c = false :=
      Text.isWhiteSpace_of_isDigit ((isPart_toDigits n).digits c h)
    rcases hc with hc | rfl | hc | rfl | hc
    · exact hdigit hc
    · rfl
    · exact hdigit hc
    · rfl
    · exact hdigit hc

/-! ## Order -/

/-- The numbers of a version, in the order in which they are compared. -/
def numbers (v : Version) : ℕ ×ₗ ℕ ×ₗ ℕ :=
  toLex (v.major.toNat, toLex (v.minor.toNat, v.patch.toNat))

theorem numbers_inj {v w : Version} : v.numbers = w.numbers ↔ v = w := by
  obtain ⟨a, b, c⟩ := v
  obtain ⟨a', b', c'⟩ := w
  simp [numbers, UInt64.toNat_inj]

theorem compare_toNat (a b : UInt64) : compare a.toNat b.toNat = compare a b := by
  show compareOfLessAndEq _ _ = compareOfLessAndEq _ _
  simp only [compareOfLessAndEq, UInt64.lt_iff_toNat_lt, UInt64.toNat_inj]

/-- Versions are compared as their numbers are. -/
theorem compare_numbers (v w : Version) : compare v.numbers w.numbers = compare v w := by
  rw [Prod.Lex.compare_def, compareLex, compareOn, compareOn, Prod.Lex.compare_def]
  simp only [compareLex, compareOn, numbers, ofLex_toLex, compare_toNat]
  rfl

theorem isLE_compare_iff {v w : Version} :
    (compare v w).isLE = true ↔ v.numbers ≤ w.numbers := by
  rw [← compare_numbers, ← compare_le_iff_le]
  cases compare v.numbers w.numbers <;> decide

/-- A text is compatible if it is read as a version between the oldest and the newest, both
included. -/
theorem isCompatible_eq_true_iff {s : String} : isCompatible s = .ok true ↔
    ∃ v, read s = .ok v ∧ oldest.numbers ≤ v.numbers ∧ v.numbers ≤ newest.numbers := by
  rw [isCompatible]
  cases read s with
  | error e => simp [Except.map]
  | ok v => simp [Except.map, isSupported, isLE_compare_iff]

/-! ## Versions as texts and as numbers -/

/-- A version is read from the texts that spell it, with or without white space around them, and a
text is refused, as it is, exactly if it does not consist of three numbers below `2 ^ 64` with
points between them.  What is written of a version is read as this version, and if it was read from
a text, then it is the text without the zeros in front of the numbers.  Versions are ordered as
their numbers are, and a text is compatible exactly if it spells a version from 0.0.1 to 0.0.12. -/
theorem read_and_order (s : String) :
    (∀ v, read s = .ok v ↔ v.Spells (Text.trim s.toList)) ∧
      (∀ e, read s = .error e ↔ e = .malformed s ∧
        ¬∃ l m n a b c, Text.trim s.toList = dotted a b c ∧ IsPart l a ∧ IsPart m b ∧ IsPart n c ∧
          l < 2 ^ 64 ∧ m < 2 ^ 64 ∧ n < 2 ^ 64) ∧
      (∀ v, read v.text = .ok v) ∧
      (∀ v, read s = .ok v → v.text.toList = canonical (Text.trim s.toList)) ∧
      (∀ v w : Version, (compare v w = .lt ↔ v.numbers < w.numbers) ∧
        (compare v w = .eq ↔ v = w) ∧ (compare v w = .gt ↔ w.numbers < v.numbers)) ∧
      (isCompatible s = .ok true ↔ ∃ v : Version, v.Spells (Text.trim s.toList) ∧
        toLex (0, toLex (0, 1)) ≤ v.numbers ∧ v.numbers ≤ toLex (0, toLex (0, 12))) := by
  refine ⟨fun v => read_eq_ok_iff, fun e => ?_, read_text, fun v h => ?_, fun v w => ?_, ?_⟩
  · rw [read_eq_error_iff, exists_spells_iff]
  · exact (read_eq_ok_iff.mp h).text_eq
  · rw [← compare_numbers, compare_lt_iff_lt, compare_eq_iff_eq, compare_gt_iff_gt, numbers_inj]
    exact ⟨Iff.rfl, Iff.rfl, Iff.rfl⟩
  · rw [isCompatible_eq_true_iff]
    simp only [read_eq_ok_iff]
    rfl

/-- White space around a text and zeros in front of its numbers make no difference. -/
theorem read_and_order_zeros :
    read " 00.0.0012\n" = .ok ⟨0, 0, 12⟩ ∧
      canonical (Text.trim " 00.0.0012\n".toList) = "0.0.12".toList ∧
      isCompatible " 00.0.0012\n" = .ok true := by
  obtain ⟨hread, -, -, htext, -, hcompatible⟩ := read_and_order " 00.0.0012\n"
  have hspells : Spells ⟨0, 0, 12⟩ (Text.trim " 00.0.0012\n".toList) := by
    have htrim : Text.trim " 00.0.0012\n".toList =
        dotted "00".toList "0".toList "0012".toList := by decide +kernel
    rw [htrim]
    constructor
    · exact ⟨by decide, by simp [Digits], rfl⟩
    · exact ⟨by decide, by simp [Digits], rfl⟩
    · exact ⟨by decide, by simp [Digits], rfl⟩
  have hok := (hread _).mpr hspells
  exact ⟨hok, (htext _ hok).symm, hcompatible.mpr ⟨_, hspells, by decide, by decide⟩⟩

end Version

end Brace
