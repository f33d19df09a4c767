/-
# Reading numbers

`Literal.Spells` says which texts spell a decimal literal: digits with at most one point, at least
one digit, and perhaps an exponent.  `Literal.read?` reads exactly these texts, each as the literal
that it spells (`Literal.read?_eq_some_iff`), and an optional sign in front of one makes a text of
a number (`ofText?_of_spells`).  The text that a finite number is written as is one of them, so that
it is read as the same number, with its sign (`ofText?_text`).
-/
import Brace.Proofs.Number.Shortest
import Brace.Proofs.Number.Unpacked

namespace Brace.Number

/-! ## Signs -/

/-- A text is another one behind an optional sign; the first argument says whether it is a minus. -/
inductive Signed : Bool → List Char → List Char → Prop
  /-- There is no sign. -/
  | unsigned (cs : List Char) : Signed false cs cs
  /-- The sign is a plus. -/
  | plus (cs : List Char) : Signed false cs ('+' :: cs)
  /-- The sign is a minus. -/
  | minus (cs : List Char) : Signed true cs ('-' :: cs)

/-- Taking the sign off leaves what stands behind it. -/
theorem signed_splitSign (cs : List Char) : Signed (splitSign cs).1 (splitSign cs).2 cs := by
  fun_cases splitSign cs with
  | case1 cs => exact .plus cs
  | case2 cs => exact .minus cs
  | case3 cs => exact .unsigned cs

/-- A sign is split off where no second one follows. -/
theorem splitSign_of_signed {negative : Bool} {rest cs : List Char} (h : Signed negative rest cs)
    (hplus : rest.head? ≠ some '+') (hminus : rest.head? ≠ some '-') :
    splitSign cs = (negative, rest) := by
  cases h with
  | unsigned =>
    fun_cases splitSign rest with
    | case1 => exact absurd rfl hplus
    | case2 => exact absurd rfl hminus
    | case3 => rfl
  | plus | minus => rfl

namespace Literal

/-! ## Exponents -/

/-- A run of digits. -/
def Digits (cs : List Char) : Prop := ∀ c ∈ cs, c.isDigit = true

/-- A text spells an exponent; the empty text spells zero. -/
inductive Exponent : ℤ → List Char → Prop
  /-- There is no exponent. -/
  | absent : Exponent 0 []
  /-- There is a mark, an optional sign and digits. -/
  | present {mark : Char} {negative : Bool} {digits cs : List Char}
      (hmark : mark = 'e' ∨ mark = 'E') (hsign : Signed negative digits cs) (hne : digits ≠ [])
      (hdigits : Digits digits) :
      Exponent
        (if negative then -(Nat.ofDigitChars 10 digits 0 : ℤ) else Nat.ofDigitChars 10 digits 0)
        (mark :: cs)

/-- The digits of an exponent are at least one, and spell its size. -/
theorem magnitude?_eq_some_iff {cs : List Char} {n : ℤ} : readExponent?.magnitude? cs = some n ↔
    cs ≠ [] ∧ Digits cs ∧ n = Nat.ofDigitChars 10 cs 0 := by
  unfold readExponent?.magnitude? Digits
  split
  · next h =>
    refine iff_of_false (fun h' => nomatch h') ?_
    rintro ⟨hne, hdigits, -⟩
    simp [hne] at h
    obtain ⟨c, hc, hdigit⟩ := h
    rw [hdigits c hc] at hdigit
    cases hdigit
  · next h =>
    simp at h
    rw [Option.some_inj, eq_comm]
    exact ⟨fun hn => ⟨h.1, h.2, hn⟩, fun hn => hn.2.2⟩

theorem head?_ne_of_digits {cs : List Char} (h : Digits cs) {c : Char} (hc : c.isDigit = false) :
    cs.head? ≠ some c := by
  intro hhead
  have hdigit := h c (List.mem_of_head? hhead)
  rw [hc] at hdigit
  cases hdigit

/-- Behind its mark an exponent is read just if it is spelled there. -/
theorem exponent_iff {mark : Char} {cs : List Char} {e : ℤ} : Exponent e (mark :: cs) ↔
    (mark = 'e' ∨ mark = 'E') ∧ readExponent? cs = some e := by
  constructor
  · intro h
    cases h with
    | present hmark hsign hne hdigits =>
      refine ⟨hmark, ?_⟩
      have hvalue := magnitude?_eq_some_iff.mpr ⟨hne, hdigits, rfl⟩
      -- The sign decides the branch of the reader; digits are no sign.
      cases hsign with
      | unsigned =>
        fun_cases readExponent? cs with
        | case1 => exact absurd rfl (head?_ne_of_digits hdigits (c := '+') rfl)
        | case2 => exact absurd rfl (head?_ne_of_digits hdigits (c := '-') rfl)
        | case3 => exact hvalue
      | plus => exact hvalue
      | minus => simp [readExponent?, hvalue]
  · rintro ⟨hmark, h⟩
    revert h
    fun_cases readExponent? cs with
    | case1 digits =>
      intro h
      obtain ⟨hne, hdigits, rfl⟩ := magnitude?_eq_some_iff.mp h
      exact .present hmark (.plus _) hne hdigits
    | case2 digits =>
      intro h
      obtain ⟨n, hn, rfl⟩ := Option.map_eq_some_iff.mp h
      obtain ⟨hne, hdigits, rfl⟩ := magnitude?_eq_some_iff.mp hn
      exact .present hmark (.minus _) hne hdigits
    | case3 =>
      intro h
      obtain ⟨hne, hdigits, rfl⟩ := magnitude?_eq_some_iff.mp h
      exact .present hmark (.unsigned _) hne hdigits

/-! ## Literals -/

/-- A text spells the digits of a literal, those in front of the point and those behind it. -/
inductive Mantissa : List Char → List Char → List Char → Prop
  /-- There is no point. -/
  | whole {whole : List Char} (hne : whole ≠ []) (hw : Digits whole) : Mantissa whole [] whole
  /-- There is a point among, before or after the digits. -/
  | point {whole fraction : List Char} (hne : ¬(whole = [] ∧ fraction = [])) (hw : Digits whole)
      (hf : Digits fraction) : Mantissa whole fraction (whole ++ '.' :: fraction)

/-- A text spells a literal. -/
inductive Spells (l : Literal) : List Char → Prop
  /-- The digits and then the exponent. -/
  | mk {cs more : List Char} (hm : Mantissa l.whole l.fraction cs) (he : Exponent l.exponent more) :
      Spells l (cs ++ more)

/-- An exponent that is there begins with its mark. -/
theorem head?_of_exponent {e : ℤ} {cs : List Char} (h : Exponent e cs) {c : Char}
    (hc : cs.head? = some c) : c = 'e' ∨ c = 'E' := by
  cases h with
  | absent => cases hc
  | present hmark =>
    obtain rfl := Option.some.inj hc
    exact hmark

/-- What stands behind the digits is read as an exponent. -/
def readBehind? (whole fraction : List Char) : List Char → Option Literal
  | [] => some ⟨whole, fraction, 0⟩
  | c :: more =>
    if c = 'e' ∨ c = 'E' then (readExponent? more).map (⟨whole, fraction, ·⟩) else none

/-- Behind the digits an exponent is read, or nothing is left. -/
theorem readBehind?_eq_some_iff {whole fraction cs : List Char} {l : Literal} :
    readBehind? whole fraction cs = some l ↔
      l.whole = whole ∧ l.fraction = fraction ∧ Exponent l.exponent cs := by
  obtain ⟨w, f, e⟩ := l
  cases cs with
  | nil =>
    simp only [readBehind?, Option.some_inj, mk.injEq]
    constructor
    · rintro ⟨rfl, rfl, rfl⟩
      exact ⟨rfl, rfl, .absent⟩
    · rintro ⟨rfl, rfl, he⟩
      cases he
      exact ⟨rfl, rfl, rfl⟩
  | cons c more =>
    rw [exponent_iff, readBehind?]
    split
    · next hc =>
      simp [Option.map_eq_some_iff, hc]
      grind
    · next hc => simp [hc]

/-- A text does not go on with a digit. -/
def EndsDigits (rest : List Char) : Prop := ∀ c, rest.head? = some c → c.isDigit = false

/-- Digits are taken up to the first character that is none. -/
theorem takeWhile_append {cs rest : List Char} (h : Digits cs) (hrest : EndsDigits rest) :
    (cs ++ rest).takeWhile Char.isDigit = cs ∧ (cs ++ rest).dropWhile Char.isDigit = rest := by
  rw [List.takeWhile_append_of_pos h, List.dropWhile_append_of_pos h]
  cases rest with
  | nil => simp
  | cons c rest => simp [hrest c rfl]

/-- Every text is digits with something behind them that is none. -/
theorem exists_digits_append (cs : List Char) :
    ∃ digits rest, Digits digits ∧ EndsDigits rest ∧ cs = digits ++ rest := by
  refine ⟨cs.takeWhile Char.isDigit, cs.dropWhile Char.isDigit,
    fun c hc => List.mem_takeWhile_imp hc, fun c hc => ?_, List.takeWhile_append_dropWhile.symm⟩
  have hnot := List.head?_dropWhile_not Char.isDigit cs
  rw [hc] at hnot
  exact hnot

/-- Without a point there has to be a digit. -/
theorem read?_whole {whole rest : List Char} (hw : Digits whole) (hrest : EndsDigits rest)
    (hpoint : rest.head? ≠ some '.') :
    read? (whole ++ rest) = if whole = [] then none else readBehind? whole [] rest := by
  unfold read?
  simp only [takeWhile_append hw hrest]
  split
  · exact absurd rfl hpoint
  · cases rest <;> simp [readBehind?]

/-- Around a point there has to be a digit on one of its sides. -/
theorem read?_point {whole fraction rest : List Char} (hw : Digits whole) (hf : Digits fraction)
    (hrest : EndsDigits rest) :
    read? (whole ++ '.' :: (fraction ++ rest)) =
      if whole = [] ∧ fraction = [] then none else readBehind? whole fraction rest := by
  have hends : EndsDigits ('.' :: (fraction ++ rest)) := fun c hc => Option.some.inj hc ▸ rfl
  unfold read?
  simp only [takeWhile_append hw hends, takeWhile_append hf hrest]
  cases rest <;> simp [readBehind?]

/-- A literal is read from the texts that spell it. -/
theorem read?_eq_some_iff {cs : List Char} {l : Literal} : read? cs = some l ↔ Spells l cs := by
  constructor
  · intro h
    -- The digits in front are taken, and then the character behind them decides.
    obtain ⟨whole, rest, hw, hrest, rfl⟩ := exists_digits_append cs
    by_cases hpoint : rest.head? = some '.'
    · obtain ⟨more, rfl⟩ : ∃ more, rest = '.' :: more := ⟨_, List.eq_cons_of_mem_head? hpoint⟩
      obtain ⟨fraction, behind, hf, hbehind, rfl⟩ := exists_digits_append more
      rw [read?_point hw hf hbehind] at h
      split at h
      · cases h
      · next hne =>
        obtain ⟨rfl, rfl, he⟩ := readBehind?_eq_some_iff.mp h
        rw [← List.cons_append, ← List.append_assoc]
        exact .mk (.point hne hw hf) he
    · rw [read?_whole hw hrest hpoint] at h
      split at h
      · cases h
      · next hne =>
        obtain ⟨rfl, hfraction, he⟩ := readBehind?_eq_some_iff.mp h
        refine .mk ?_ he
        rw [hfraction]
        exact .whole hne hw
  · obtain ⟨whole, fraction, e⟩ := l
    intro h
    cases h with
    | @mk _ more hm he =>
      have hhead {c : Char} (hc : more.head? = some c) := head?_of_exponent he hc
      have hends : EndsDigits more := fun c hc => by
        obtain rfl | rfl := hhead hc <;> rfl
      have hbehind := readBehind?_eq_some_iff.mpr ⟨rfl, rfl, he⟩
      cases hm with
      | whole hne hw =>
        rw [read?_whole hw hends fun hc => by simpa using hhead hc, if_neg hne]
        exact hbehind
      | point hne hw hf =>
        rw [List.append_assoc, List.cons_append, read?_point hw hf hends, if_neg hne]
        exact hbehind

/-- The characters of a literal without an exponent spell it. -/
theorem spells_chars {l : Literal} (hw : Digits l.whole) (hf : Digits l.fraction)
    (hne : l.whole ≠ []) (he : l.exponent = 0) : Spells l l.chars := by
  obtain ⟨whole, fraction, e⟩ := l
  obtain rfl : e = 0 := he
  rw [chars, ← List.append_nil (_ ++ _)]
  refine .mk ?_ .absent
  split
  · next h =>
    obtain rfl : fraction = [] := h
    rw [List.append_nil]
    exact .whole hne hw
  · exact .point (fun h => hne h.1) hw hf

/-- A literal begins with a digit or a point. -/
theorem Spells.head {l : Literal} {cs : List Char} (h : Spells l cs) :
    ∃ c rest, cs = c :: rest ∧ (c.isDigit = true ∨ c = '.') := by
  obtain ⟨whole, fraction, e⟩ := l
  cases h with
  | mk hm he =>
    cases hm with
    | whole hne hw =>
      obtain ⟨c, rest, rfl⟩ := List.exists_cons_of_ne_nil hne
      exact ⟨c, _, rfl, Or.inl (hw c List.mem_cons_self)⟩
    | point hne hw hf =>
      cases whole with
      | nil => exact ⟨'.', _, rfl, Or.inr rfl⟩
      | cons c rest => exact ⟨c, _, rfl, Or.inl (hw c List.mem_cons_self)⟩

/-- A literal begins with no sign. -/
theorem Spells.head?_ne_sign {l : Literal} {cs : List Char} (h : Spells l cs) :
    cs.head? ≠ some '+' ∧ cs.head? ≠ some '-' := by
  obtain ⟨c, rest, rfl, hc⟩ := h.head
  constructor <;> rintro ⟨rfl⟩ <;> simp at hc

end Literal

/-! ## Texts of numbers -/

theorem toLower_of_isDigit {c : Char} (h : c.isDigit = true) : c.toLower = c := by
  have hupper : ¬(c.val ≥ 'A'.val ∧ c.val ≤ 'Z'.val) := by
    simp [Char.isDigit, UInt32.le_iff_toNat_le] at h ⊢
    omega
  rw [Char.toLower, dif_neg hupper]

/-- A literal is none of the words for numbers. -/
theorem Literal.Spells.ne_word {l : Literal} {cs : List Char} (h : l.Spells cs) :
    ∀ word ∈ ["inf", "infinity", "nan"], String.ofList (cs.map Char.toLower) ≠ word := by
  obtain ⟨c, rest, rfl, hc⟩ := h.head
  have hlower : c.toLower = c := by
    rcases hc with hc | rfl
    · exact toLower_of_isDigit hc
    · rfl
  intro word hword heq
  rw [String.ofList_eq, List.map_cons, hlower] at heq
  -- Every word begins with a letter.
  simp only [List.mem_cons, List.not_mem_nil, or_false] at hword
  rcases hword with rfl | rfl | rfl
  all_goals
    obtain ⟨rfl, -⟩ : c = _ ∧ _ := by simpa using heq
    simp at hc

/-- A literal with a sign is read as its value with this sign. -/
theorem ofText?_of_spells {l : Literal} {negative : Bool} {rest cs : List Char}
    (hsign : Signed negative rest cs) (h : l.Spells rest) :
    ofText? (String.ofList cs) = some (signed negative l.value) := by
  have hsplit := splitSign_of_signed hsign h.head?_ne_sign.1 h.head?_ne_sign.2
  have hword := h.ne_word
  unfold ofText?
  simp only [String.toList_ofList, hsplit]
  rw [if_neg (by simp [hword]), if_neg (by simp [hword]), Literal.read?_eq_some_iff.mpr h]
  rfl

/-! ## The display text of a number -/

/-- A positive finite number can be printed. -/
theorem printable_of_parts {x : Float} {m : ℕ} {e : ℤ} (h : parts x = .finite false m e) :
    Limits.printable.number x := by
  obtain ⟨-, hmax, hlt, -, hbits⟩ := bits_of_parts h
  refine ⟨by rw [isFinite, h], ?_⟩
  rw [SignClear, hbits, Nat.pow_eq]
  omega

/-- A finite number is read from its text, the negative zero included. -/
theorem ofText?_text {x : Float} {m : ℕ} {e : ℤ} {negative : Bool}
    (h : parts x = .finite negative m e) : ofText? (text x) = some x := by
  -- For positive numbers the text is a literal.
  have hpositive {y : Float} (hy : parts y = .finite false m e) :
      ∃ l : Literal, l.Spells (text y).toList ∧ l.value = y := by
    obtain ⟨l, hchars, hw, hf, hne, he, hvalue⟩ := exists_literal_of_text (printable_of_parts hy)
    exact ⟨l, hchars ▸ Literal.spells_chars hw hf hne he, hvalue⟩
  cases negative with
  | false =>
    obtain ⟨l, hl, hvalue⟩ := hpositive h
    have hread := ofText?_of_spells (.unsigned _) hl
    rwa [String.ofList_toList, hvalue] at hread
  | true =>
    -- The text of a negative number is that of its opposite behind a minus.
    have hopposite : parts (-x) = .finite false m e := by rw [parts_neg, h]; rfl
    obtain ⟨l, hl, hvalue⟩ := hpositive hopposite
    have htext : text x = String.ofList ('-' :: (text (-x)).toList) := by
      simp only [text, h, hopposite]
      simp
    rw [htext, ofText?_of_spells (.minus _) hl, hvalue]
    exact congrArg some (neg_neg_eq_self x)

end Brace.Number
