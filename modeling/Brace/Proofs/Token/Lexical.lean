/-
# Which tokens a lexer hands out

The tokens that have been handed out determine the modes of a lexer: a back-quote opens or closes a
template, and a brace inside a template opens or closes an interpolation (`Mode.after`).  Only a
brace that is held back comes later than the mode it opens, so `Lexer.inner` leaves that mode out.
Along these modes every token is well formed (`Token.Fits`).
-/
import Brace.Proofs.Number.Bits
import Brace.Proofs.Token.Hands
import Brace.Proofs.Token.Rules
import Brace.Proofs.Token.Texts

namespace Brace

/-! ## Modes and tokens -/

/-- The modes behind a token. -/
def Mode.after (modes : List Mode) : Token → List Mode
  | .punct .backquote =>
    match modes with
    | .template :: outer => outer
    | modes => .template :: modes
  | .punct .leftBrace =>
    match modes with
    | .template :: outer => .interpolation 0 :: .template :: outer
    | modes => Mode.openBrace modes
  | .punct .rightBrace => Mode.closeBrace modes
  | _ => modes

/-- Whether a lexer with the given modes reads an expression. -/
def Mode.InExpression (modes : List Mode) : Prop := modes.head? ≠ some .template

/-- What a token is like that is handed out in the given modes. -/
def Token.Fits (modes : List Mode) : Token → Prop
  | .number x => Limits.parsed.number x
  | .string s => Mode.InExpression modes ∨ IsQuasi s.toList
  | .regexp pattern flags => isPattern pattern.toList = true ∧ IsFlags flags
  | .identifier name => IsName name
  | _ => True

/-- Tokens that can be handed out one behind the other, beginning in the given modes. -/
def Lexical : List Mode → List Token → Prop
  | _, [] => True
  | modes, t :: ts => t.Fits modes ∧ Lexical (Mode.after modes t) ts

/-- In an expression a back-quote opens a template, and a brace is counted. -/
theorem Mode.after_of_inExpression {modes : List Mode} (h : InExpression modes) :
    after modes (.punct .backquote) = .template :: modes ∧
      after modes (.punct .leftBrace) = openBrace modes := by
  cases modes with
  | nil => exact ⟨rfl, rfl⟩
  | cons m outer => cases m <;> first | exact ⟨rfl, rfl⟩ | exact absurd rfl h

/-- A closing brace takes back what the opening one did. -/
theorem Mode.closeBrace_openBrace {modes : List Mode} (h : InExpression modes) :
    closeBrace (openBrace modes) = modes ∧ InExpression (openBrace modes) := by
  cases modes with
  | nil => exact ⟨rfl, h⟩
  | cons m outer =>
    cases m with
    | template => exact absurd rfl h
    | expression => exact ⟨rfl, h⟩
    | interpolation depth => exact ⟨rfl, by simp [openBrace, InExpression]⟩

/-! ## One token -/

namespace Lexer

/-- A lexer reads an expression unless it is in the text of a template. -/
theorem inExpression_iff {l : Lexer} : Mode.InExpression l.modes ↔ l.mode ≠ .template := by
  unfold Mode.InExpression mode
  cases l.modes.head? with
  | none => exact ⟨fun _ => nofun, fun _ => nofun⟩
  | some m => exact not_congr Option.some_inj

/-- The modes without the one whose brace is held back. -/
def inner (l : Lexer) : List Mode := if l.held then l.modes.tail else l.modes

/-- A brace is held back only behind the text of a template. -/
def Settled (l : Lexer) : Prop :=
  l.held = true → ∃ outer, l.modes = .interpolation 0 :: .template :: outer

/-- An answer is an error, or a token that fits with the modes behind it. -/
def Follows (l : Lexer) (r : Except LexError Token × Lexer) : Prop :=
  ∀ t, r.1 = .ok t → r.2.Settled ∧ t.Fits l.inner ∧ r.2.inner = Mode.after l.inner t

theorem follows_refuse (l l' : Lexer) (n : Nat) (fault : LexFault) :
    l.Follows (l'.refuse n fault) := fun _ h => nomatch h

/-- A token that fits and is followed by its modes follows. -/
theorem follows_emit {l l' : Lexer} {n : Nat} {t : Token} (hs : l'.Settled)
    (ht : t.Fits l.inner) (hi : l'.inner = Mode.after l.inner t) :
    l.Follows (l'.emit n t) := by
  intro u hu
  obtain rfl : t = u := Except.ok.inj hu
  exact ⟨hs, ht, hi⟩

/-- Without a brace that is held back nothing is left out. -/
theorem inner_of_not_held {l : Lexer} (h : l.held = false) : l.inner = l.modes := by
  rw [inner, h]
  rfl

theorem settled_of_not_held {l : Lexer} (h : l.held = false) : l.Settled := fun h' =>
  nomatch h.symm.trans h'

/-- What is read in a template fits into it. -/
theorem ReadsTemplate.follows {l : Lexer} {r : Except LexError Token × Lexer}
    (h : l.ReadsTemplate r) (hh : l.held = false) {outer : List Mode}
    (hm : l.modes = .template :: outer) : l.Follows r := by
  have hi : l.inner = .template :: outer := (inner_of_not_held hh).trans hm
  have hin (modes : List Mode) : ({ l with modes := modes } : Lexer).inner = modes :=
    inner_of_not_held (l := { l with modes := modes }) hh
  have hquasi := Scan.quasiFrom_template false l.cursor.rest
  cases h with
  | endOfSource => exact follows_refuse _ _ _ _
  | backquote =>
    refine follows_emit (settled_of_not_held hh) trivial ?_
    rw [hin, hi, hm]
    rfl
  | text hrun hstop _ =>
    subst hrun
    refine follows_emit (settled_of_not_held hh) (Or.inr ?_) rfl
    rw [String.toList_ofList]
    exact isQuasi_iff.mpr (hquasi (by rw [hstop]; nofun))
  | brace =>
    refine follows_emit (settled_of_not_held hh) trivial ?_
    rw [hin, hi, hm]
    rfl
  | textAndBrace hrun hstop _ =>
    subst hrun
    refine follows_emit (fun _ => ⟨outer, by rw [hm]⟩) (Or.inr ?_) ?_
    · rw [String.toList_ofList]
      exact isQuasi_iff.mpr (hquasi (by rw [hstop]; nofun))
    · rw [hi, ← hm]
      rfl

/-- A word fits everywhere, whether it is a keyword, a constant, an operator or a name. -/
theorem fits_ofWord {modes : List Mode} {c : Char} {cs : List Char}
    (hc : Scan.isNameStart c = true) (hcs : ∀ d ∈ cs, Scan.isNameChar d = true) :
    (Token.ofWord (String.ofList (c :: cs))).Fits modes := by
  cases ht : Token.ofWord (String.ofList (c :: cs)) with
  | identifier name =>
    obtain ⟨rfl, hfree⟩ := ofWord_eq_identifier_iff.mp ht
    exact ⟨⟨c, cs, String.toList_ofList, hc, hcs⟩, hfree⟩
  | number | string | regexp =>
    unfold Token.ofWord at ht
    repeat' split at ht
    all_goals cases ht
  | _ => trivial

/-- Punctuation other than quotes and braces leaves the modes. -/
theorem after_punct {modes : List Mode} {c : Char} {p : Punct} (h : Punct.ofChar? c = some p)
    (hq : c ≠ '\x60') (hl : c ≠ '\x7b') (hr : c ≠ '\x7d') :
    Mode.after modes (.punct p) = modes := by
  have hc : p.char = c := by simpa using List.find?_some h
  cases p <;> first | rfl | exact absurd hc.symm (by assumption)

/-- A word leaves the modes. -/
theorem after_ofWord (modes : List Mode) (word : String) :
    Mode.after modes (Token.ofWord word) = modes := by
  unfold Token.ofWord
  repeat' split
  all_goals rfl

/-- What is read in an expression fits into it. -/
theorem ReadsFrom.follows {l : Lexer} {c : Char} {rest : List Char}
    {r : Except LexError Token × Lexer} (h : l.ReadsFrom c rest r) (hh : l.held = false)
    (hm : Mode.InExpression l.modes) : l.Follows r := by
  have hi : l.inner = l.modes := inner_of_not_held hh
  have hafter := Mode.after_of_inExpression hm
  -- Most tokens leave the modes as they are.
  have emits {n : Nat} {t : Token} (ht : t.Fits l.modes) (ha : Mode.after l.modes t = l.modes) :
      l.Follows (l.emit n t) :=
    follows_emit (settled_of_not_held hh) (hi ▸ ht) (by rw [hi, ha])
  cases h with
  | openString | doubleDot | openRegExp | badFlags | badCharacter => exact follows_refuse _ _ _ _
  | string => exact emits (Or.inl hm) rfl
  | number => exact emits (Number.parsed_toFloat _) rfl
  | word hc hcs =>
    subst hcs
    have hword : ∀ d ∈ rest.takeWhile Scan.isNameChar, Scan.isNameChar d = true := by
      intro d hd
      exact List.all_eq_true.mp List.all_takeWhile d hd
    exact emits (fits_ofWord hc hword) (after_ofWord _ _)
  | regexp _ _ hp hf =>
    have hflags := Scan.isFlags_of_flags hf List.nodup_nil (by simp)
    refine emits ⟨?_, ?_, ?_⟩ rfl
    · rw [String.toList_ofList]
      exact Scan.isPattern_of_pattern hp
    · rw [String.toList_ofList]
      exact hflags.2
    · rw [String.toList_ofList]
      exact hflags.1
  | comparisonEqual | comparison | operator => exact emits trivial rfl
  | backquote =>
    refine follows_emit (settled_of_not_held hh) trivial ?_
    rw [hi, hafter.1]
    exact inner_of_not_held hh
  | leftBrace =>
    refine follows_emit (settled_of_not_held hh) trivial ?_
    rw [hi, hafter.2]
    exact inner_of_not_held hh
  | rightBrace =>
    refine follows_emit (settled_of_not_held hh) trivial ?_
    rw [hi]
    exact inner_of_not_held hh
  | punct hq hl hr hp => exact emits trivial (after_punct hp hq hl hr)

theorem eq_cons_of_mode_template {l : Lexer} (h : l.mode = .template) :
    ∃ outer, l.modes = .template :: outer := by
  cases hm : l.modes with
  | nil =>
    rw [mode, hm] at h
    cases h
  | cons m outer =>
    rw [mode, hm] at h
    obtain rfl : m = .template := h
    exact ⟨outer, rfl⟩

/-- What is read fits the modes that it is read in. -/
theorem follows_read {l : Lexer} (hs : l.Settled) : l.Follows l.read := by
  have h := l.readsToken
  generalize l.read = r at h ⊢
  cases h with
  | held hh =>
    obtain ⟨outer, hm⟩ := hs hh
    refine follows_emit (settled_of_not_held rfl) trivial ?_
    rw [inner_of_not_held rfl, inner, if_pos hh, hm]
    rfl
  | template hh hmode h =>
    obtain ⟨outer, hm⟩ := eq_cons_of_mode_template hmode
    exact h.follows hh hm
  | openInterpolation => exact follows_refuse _ _ _ _
  | eof hh _ _ hk =>
    subst hk
    exact follows_emit (settled_of_not_held hh) trivial rfl
  | expression hh hmode hk _ h =>
    subst hk
    exact h.follows hh (inExpression_iff.mpr hmode)

@[simp]
theorem cursor_remember (l : Lexer) (t : Token) : (l.remember t).cursor = l.cursor := by
  unfold remember
  split <;> rfl

@[simp]
theorem modes_remember (l : Lexer) (t : Token) : (l.remember t).modes = l.modes := by
  unfold remember
  split <;> rfl

@[simp]
theorem inner_remember (l : Lexer) (t : Token) : (l.remember t).inner = l.inner := by
  unfold remember
  split <;> rfl

/-- Remembering a token holds no brace back. -/
theorem settled_remember {l : Lexer} (h : l.Settled) (t : Token) : (l.remember t).Settled := by
  unfold remember
  split <;> exact h

/-- A token that is handed out fits, and turns the modes to those behind it. -/
theorem follows_next {l : Lexer} (hs : l.Settled) : l.Follows l.next := by
  have h := follows_read hs
  intro t ht
  unfold next at ht ⊢
  split at ht
  · next u m hr =>
    obtain rfl := Except.ok.inj ht
    obtain ⟨hm, hfit, hi⟩ := h u (by rw [hr])
    rw [hr] at hm hi
    exact ⟨settled_remember hm u, hfit, (inner_remember m u).trans hi⟩
  · cases ht

/-! ## All tokens -/

/-- The tokens of a text fit the modes along the way. -/
theorem Yields.lexical {l : Lexer} {ts : List Token} (h : l.Yields ts) (hs : l.Settled) :
    Lexical l.inner ts := by
  induction h with
  | eof => trivial
  | cons hn _ _ ih =>
    obtain ⟨hm, hfit, hi⟩ := follows_next hs _ (by rw [hn])
    rw [hn] at hm hi
    exact ⟨hfit, hi ▸ ih hm⟩

/-- The tokens of a source can be handed out one behind the other, beginning in an expression. -/
theorem lexical_of_yields {source : String} {ts : List Token}
    (h : (ofString source).Yields ts) : Lexical [.expression] ts :=
  h.lexical (settled_of_not_held rfl)

end Lexer

end Brace
