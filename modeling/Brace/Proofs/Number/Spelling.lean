/-
# Texts that count as numbers

`Numeral.Spells` says which texts spell a number: the empty text, digits of a base behind its mark,
and `Infinity` or a decimal literal behind an optional sign.  Numerals are read from exactly these
texts (`Numeral.readTrimmed?_eq_some_iff`) and their values are numbers (`Numeral.value_ne_nan`).
So a text counts as a number exactly if it spells one, apart from white space at its ends
(`toNumber_string`).
-/
import Brace.Value.Number
import Brace.Proofs.Number.Digits
import Brace.Proofs.Number.Reading

namespace Brace.Number

/-! ## Digits of a base -/

theorem toNat_toLower (c : Char) :
    c.toLower.toNat = if 65 ≤ c.toNat ∧ c.toNat ≤ 90 then c.toNat + 32 else c.toNat := by
  unfold Char.toLower
  split
  · next h =>
    have hupper : 65 ≤ c.toNat ∧ c.toNat ≤ 90 := h
    have hle : c.val.toNat ≤ 90 := hupper.2
    rw [if_pos hupper]
    show (c.val + 32).toNat = c.val.toNat + 32
    rw [UInt32.toNat_add]
    exact Nat.mod_eq_of_lt (by change c.val.toNat + 32 < _; omega)
  · next h =>
    have hupper : ¬(65 ≤ c.toNat ∧ c.toNat ≤ 90) := h
    rw [if_neg hupper]

theorem digitValue?_eq_some_iff {c : Char} {d : ℕ} (hd : d < 16) :
    digitValue? c = some d ↔ c.toLower = d.digitChar := by
  rw [← Char.toNat_inj, toNat_toLower]
  simp only [digitValue?, Char.isDigit, Char.le_def, UInt32.le_iff_toNat_le]
  interval_cases d <;> simp [Nat.digitChar] <;> grind

namespace Radix

/-- The letters that mark a base. -/
def marks : Radix → List Char
  | binary => ['b', 'B']
  | octal => ['o', 'O']
  | hexadecimal => ['x', 'X']

theorem ofMark?_eq_some_iff {c : Char} {r : Radix} : ofMark? c = some r ↔ c ∈ r.marks := by
  unfold ofMark?
  cases r <;> simp [marks] <;> grind

/-- A character is the digit of a base that has the given value; letters are digits in either
case. -/
def IsDigit (r : Radix) (c : Char) (d : ℕ) : Prop := d < r.base ∧ c.toLower = d.digitChar

theorem digit?_eq_some_iff {r : Radix} {c : Char} {d : ℕ} :
    r.digit? c = some d ↔ r.IsDigit c d := by
  have hbase : r.base ≤ 16 := by cases r <;> decide
  rw [digit?, Option.filter_eq_some_iff, decide_eq_true_iff, IsDigit, and_comm]
  exact and_congr_right fun hd => digitValue?_eq_some_iff (hd.trans_le hbase)

/-- Characters are read as digits of a base one by one. -/
theorem mapM_digit?_eq_some_iff {r : Radix} {cs : List Char} {digits : List ℕ} :
    cs.mapM r.digit? = some digits ↔ List.Forall₂ r.IsDigit cs digits := by
  induction cs generalizing digits with
  | nil => simp [eq_comm]
  | cons c cs ih =>
    simp only [List.mapM_cons, Option.bind_eq_bind, Option.bind_eq_some_iff, Option.pure_def,
      Option.some_inj, digit?_eq_some_iff, ih, List.forall₂_cons_left_iff]
    grind

end Radix

theorem parsed_infinity : Limits.parsed.number infinity := parsed_ofBits (by decide)

/-- A number that a source may have is a number. -/
theorem ne_nan_of_parsed {x : Float} (h : Limits.parsed.number x) : x ≠ nan :=
  mt parts_eq_nan_iff.mpr h.1

/-- A sign makes no number into something that is none. -/
theorem signed_ne_nan (negative : Bool) {x : Float} (h : Limits.parsed.number x) :
    signed negative x ≠ nan := by
  have hparts : parts x ≠ .nan := h.1
  cases negative with
  | false => exact ne_nan_of_parsed h
  | true =>
    rw [signed, if_pos rfl, Ne, ← parts_eq_nan_iff, parts_neg]
    cases hx : parts x with
    | nan => exact absurd hx hparts
    | infinite | finite => simp [Parts.opposite]

namespace Numeral

/-- A text spells a numeral. -/
inductive Spells : Numeral → List Char → Prop
  /-- The empty text. -/
  | blank : Spells blank []
  /-- One or more digits of a base, behind a zero and the mark of the base. -/
  | radix {r : Radix} {mark : Char} {cs : List Char} {digits : List ℕ} (hmark : mark ∈ r.marks)
      (hne : cs ≠ []) (hdigits : List.Forall₂ r.IsDigit cs digits) :
      Spells (radix r digits) ('0' :: mark :: cs)
  /-- An infinity behind an optional sign. -/
  | infinite {negative : Bool} {cs : List Char} (h : Signed negative "Infinity".toList cs) :
      Spells (infinite negative) cs
  /-- A decimal literal behind an optional sign. -/
  | decimal {negative : Bool} {rest cs : List Char} {l : Literal} (hsign : Signed negative rest cs)
      (h : l.Spells rest) : Spells (decimal negative l) cs

/-- Behind an optional sign stands the word for infinity or a decimal literal. -/
theorem readSigned?_eq_some_iff {cs : List Char} {n : Numeral} : readSigned? cs = some n ↔
    (∃ negative, n = infinite negative ∧ Signed negative "Infinity".toList cs) ∨
      ∃ negative l rest, n = decimal negative l ∧ Signed negative rest cs ∧ l.Spells rest := by
  have hsplit := signed_splitSign cs
  constructor
  · intro h
    rw [readSigned?] at h
    simp only at h
    split at h
    · next hword =>
      obtain rfl := Option.some.inj h
      exact Or.inl ⟨_, rfl, hword ▸ hsplit⟩
    · obtain ⟨l, hl, rfl⟩ := Option.map_eq_some_iff.mp h
      exact Or.inr ⟨_, l, _, rfl, hsplit, Literal.read?_eq_some_iff.mp hl⟩
  · rintro (⟨negative, rfl, hsign⟩ | ⟨negative, l, rest, rfl, hsign, hl⟩)
    · rw [readSigned?, splitSign_of_signed hsign (by decide) (by decide)]
      rfl
    -- A literal begins with a digit or a point, and so it is not the word.
    · have hword : rest ≠ "Infinity".toList := by
        obtain ⟨c, more, rfl, hc⟩ := hl.head
        intro heq
        obtain ⟨rfl, -⟩ : c = 'I' ∧ _ := by simpa using heq
        simp at hc
      obtain ⟨hplus, hminus⟩ := hl.head?_ne_sign
      rw [readSigned?, splitSign_of_signed hsign hplus hminus]
      simp only
      rw [if_neg hword, Literal.read?_eq_some_iff.mpr hl]
      rfl

/-- Behind a zero and the mark of a base there is no decimal literal. -/
theorem readSigned?_mark {mark : Char} {r : Radix} {cs : List Char} (h : mark ∈ r.marks) :
    readSigned? ('0' :: mark :: cs) = none := by
  cases r with
  | binary | octal | hexadecimal =>
    simp only [Radix.marks, List.mem_cons, List.not_mem_nil, or_false] at h
    rcases h with rfl | rfl <;> simp [readSigned?, splitSign, Literal.read?]

/-- A numeral is read from the texts that spell it. -/
theorem readTrimmed?_eq_some_iff {cs : List Char} {n : Numeral} :
    readTrimmed? cs = some n ↔ n.Spells cs := by
  constructor
  · intro h
    have hsigned (h : readSigned? cs = some n) : n.Spells cs := by
      obtain ⟨negative, rfl, hsign⟩ | ⟨negative, l, rest, rfl, hsign, hl⟩ :=
        readSigned?_eq_some_iff.mp h
      · exact .infinite hsign
      · exact .decimal hsign hl
    unfold readTrimmed? at h
    split at h
    · obtain rfl := Option.some.inj h
      exact .blank
    · split at h
      · next hmark =>
        split at h
        · cases h
        · next hne =>
          obtain ⟨digits, hdigits, rfl⟩ := Option.map_eq_some_iff.mp h
          exact .radix (Radix.ofMark?_eq_some_iff.mp hmark) (by simpa using hne)
            (Radix.mapM_digit?_eq_some_iff.mp hdigits)
      · exact hsigned h
    · exact hsigned h
  · intro h
    -- What begins with the mark of a radix is not read with a sign.
    have hsigned (h : readSigned? cs = some n) : readTrimmed? cs = some n := by
      unfold readTrimmed?
      split
      · cases h
      · split
        · next hmark =>
          rw [readSigned?_mark (Radix.ofMark?_eq_some_iff.mp hmark)] at h
          cases h
        · exact h
      · exact h
    cases h with
    | blank => rfl
    | radix hmark hne hdigits =>
      exact readTrimmed?_radix (Radix.ofMark?_eq_some_iff.mpr hmark) hne
        (Radix.mapM_digit?_eq_some_iff.mpr hdigits)
    | infinite h => exact hsigned (readSigned?_eq_some_iff.mpr (Or.inl ⟨_, rfl, h⟩))
    | decimal hsign h =>
      exact hsigned (readSigned?_eq_some_iff.mpr (Or.inr ⟨_, _, _, rfl, hsign, h⟩))

/-! ## Values -/

/-- Whatever is spelled as a number has a value that is one. -/
theorem value_ne_nan {n : Numeral} {cs : List Char} (h : n.Spells cs) : n.value ≠ nan := by
  cases h with
  | blank => exact ne_nan_of_parsed (parsed_ofRatio 0 1)
  | radix hmark hne hdigits =>
    have hlt := Radix.lt_base_of_mapM (Radix.mapM_digit?_eq_some_iff.mpr hdigits)
    rw [value, Radix.radixValue_eq hlt]
    exact ne_nan_of_parsed (parsed_ofRatio _ 1)
  | infinite =>
    rw [value]
    exact signed_ne_nan _ parsed_infinity
  | decimal =>
    rw [value]
    exact signed_ne_nan _ (parsed_toFloat _)

end Numeral

/-- A text counts as a number just if it spells one, without the white space at its ends. -/
theorem ofSpelling_ne_nan_iff {s : String} :
    ofSpelling s ≠ nan ↔ ∃ n : Numeral, n.Spells (Text.trim s.toList) := by
  unfold ofSpelling Numeral.read?
  cases h : Numeral.readTrimmed? (Text.trim s.toList) with
  | none =>
    refine iff_of_false (fun hne => hne rfl) ?_
    rintro ⟨n, hn⟩
    rw [Numeral.readTrimmed?_eq_some_iff.mpr hn] at h
    cases h
  | some n =>
    have hn := Numeral.readTrimmed?_eq_some_iff.mp h
    exact iff_of_true (Numeral.value_ne_nan hn) ⟨n, hn⟩

/-- A text that spells a numeral has its value. -/
theorem ofSpelling_of_spells {s : String} {n : Numeral} (h : n.Spells (Text.trim s.toList)) :
    ofSpelling s = n.value := by
  rw [ofSpelling, Numeral.read?, Numeral.readTrimmed?_eq_some_iff.mpr h]

/-- A text counts as a number exactly if, without the white space around it, it spells a numeral: it
is empty, or digits of a base behind its mark, or `Infinity` or a decimal literal behind an optional
sign.  Empty text is zero, infinities have their sign, and a decimal literal is the number that is
read from the whole of it. -/
theorem toNumber_string [Regex.Engine] {s : String} {t : List Char}
    (ht : Text.trim s.toList = t) :
    ((Value.string s).toNumber ≠ nan ↔ ∃ n : Numeral, n.Spells t) ∧
      (t = [] → (Value.string s).toNumber = 0) ∧
      (∀ negative, Signed negative "Infinity".toList t →
        (Value.string s).toNumber = signed negative infinity) ∧
      ∀ negative rest l, Signed negative rest t → Literal.Spells l rest →
        ofText? (String.ofList t) = some (Value.string s).toNumber := by
  subst ht
  have hvalue {n : Numeral} (h : n.Spells (Text.trim s.toList)) :
      (Value.string s).toNumber = n.value := ofSpelling_of_spells h
  refine ⟨ofSpelling_ne_nan_iff, fun h => ?_, fun negative h => ?_,
    fun negative rest l hsign h => ?_⟩
  · have hblank : Numeral.Spells .blank (Text.trim s.toList) := h ▸ .blank
    rw [hvalue hblank, Numeral.value]
  · rw [hvalue (.infinite h), Numeral.value]
  · rw [ofText?_of_spells hsign h, hvalue (.decimal hsign h), Numeral.value]

/-- A literal without digits before its point, behind a sign and between kinds of white space. -/
theorem toNumber_string_point :
    (Value.string "\u00a0-.5E+3\n").toNumber ≠ nan ∧
      ofText? "-.5E+3" = some (Value.string "\u00a0-.5E+3\n").toNumber := by
  have htrim : Text.trim "\u00a0-.5E+3\n".toList = "-.5E+3".toList := by decide +kernel
  have hsign : Signed true ".5E+3".toList "-.5E+3".toList := .minus _
  have hliteral : Literal.Spells ⟨[], ['5'], 3⟩ ".5E+3".toList :=
    .mk (.point (by decide) (by simp [Literal.Digits]) (by simp [Literal.Digits]))
      (.present (Or.inr rfl) (.plus ['3']) (by decide) (by simp [Literal.Digits]))
  obtain ⟨hnumeral, -, -, hread⟩ := toNumber_string htrim
  exact ⟨hnumeral.mpr ⟨_, .decimal hsign hliteral⟩, hread true _ _ hsign hliteral⟩

end Brace.Number
