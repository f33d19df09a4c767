/-
# The rules by which tokens are read

The mode of a lexer and the characters at the front of what is left decide how a token is read.
There is one rule for each way, with what is known where it applies: `Lexer.ReadsTemplate` is about
the text of a template, `Lexer.ReadsFrom` about a token of an expression by its first character, and
`Lexer.ReadsToken` about any token with the layout in front of it.  A lexer reads by these rules
(`Lexer.readsToken`), and what holds of every answer is shown rule by rule.
-/
import Brace.Token.Lexer

namespace Brace.Lexer

variable {l : Lexer}

/-! ## The text of a template -/

/-- The ways in which the text of a template is read. -/
inductive ReadsTemplate (l : Lexer) : Except LexError Token × Lexer → Prop where
  /-- The source ends in the text. -/
  | endOfSource {run : Scan.TemplateRun} :
      Scan.template false l.cursor.rest = run → run.stop = .endOfSource →
        ReadsTemplate l (l.refuse run.length .unterminatedTemplate)
  /-- A back-quote stands at the front and ends the template. -/
  | backquote {run : Scan.TemplateRun} :
      Scan.template false l.cursor.rest = run → run.stop = .backquote → run.text = [] →
        ReadsTemplate l
          ({ l with modes := l.modes.tail }.emit (run.length + 1) (.punct .backquote))
  /-- Text stands in front of the back-quote. -/
  | text {run : Scan.TemplateRun} :
      Scan.template false l.cursor.rest = run → run.stop = .backquote → run.text ≠ [] →
        ReadsTemplate l (l.emit run.length (.string (String.ofList run.text)))
  /-- A brace stands at the front and begins an interpolation. -/
  | brace {run : Scan.TemplateRun} :
      Scan.template false l.cursor.rest = run → run.stop = .interpolation → run.text = [] →
        ReadsTemplate l ({ l with modes := .interpolation 0 :: l.modes }.emit run.length
          (.punct .leftBrace))
  /-- Text stands in front of the brace, which is taken with the text and held back. -/
  | textAndBrace {run : Scan.TemplateRun} :
      Scan.template false l.cursor.rest = run → run.stop = .interpolation → run.text ≠ [] →
        ReadsTemplate l ({ l with modes := .interpolation 0 :: l.modes, held := true }.emit
          run.length (.string (String.ofList run.text)))

/-- What a lexer reads of the text of a template, it reads by the rules. -/
theorem readsTemplate (l : Lexer) : l.ReadsTemplate l.readTemplate := by
  unfold readTemplate
  simp only
  split
  · next hstop => exact .endOfSource rfl hstop
  · next hstop htext => exact .backquote rfl hstop htext
  · next hstop htext => exact .text rfl hstop htext
  · next hstop htext => exact .brace rfl hstop htext
  · next hstop htext => exact .textAndBrace rfl hstop htext

/-! ## A token of an expression -/

/-- The ways in which a token of an expression is read, by its first character `c` and the
characters `rest` behind it. -/
inductive ReadsFrom (l : Lexer) (c : Char) (rest : List Char) :
    Except LexError Token × Lexer → Prop where
  /-- A string. -/
  | string {text : List Char} {n : Nat} :
      c = '"' ∨ c = '\'' → Scan.quoted c rest = some (text, n) →
        ReadsFrom l c rest (l.emit (n + 1) (.string (String.ofList text)))
  /-- A string that does not end. -/
  | openString :
      c = '"' ∨ c = '\'' → Scan.quoted c rest = none →
        ReadsFrom l c rest (l.refuse (rest.length + 1) .unterminatedString)
  /-- A number. -/
  | number {literal : Number.Literal} {n : Nat} :
      c.isDigit = true → Scan.number (c :: rest) = (some literal, n) →
        ReadsFrom l c rest (l.emit n (.number literal.value))
  /-- A number with two points. -/
  | doubleDot {n : Nat} :
      c.isDigit = true → Scan.number (c :: rest) = (none, n) →
        ReadsFrom l c rest (l.refuse n .doubleDot)
  /-- A word. -/
  | word {cs : List Char} :
      Scan.isNameStart c = true → rest.takeWhile Scan.isNameChar = cs →
        ReadsFrom l c rest (l.emit (cs.length + 1) (Token.ofWord (String.ofList (c :: cs))))
  /-- A regular expression, where an operand is expected. -/
  | regexp {pattern flags : List Char} {n : Nat} :
      c = '/' → l.atOperand = true → Scan.pattern false l.cursor.rest.tail = some (pattern, n) →
        Scan.flags [] (l.cursor.rest.drop (n + 1)) = .ok flags →
          ReadsFrom l c rest (l.emit (n + 1 + flags.length)
            (.regexp (String.ofList pattern) (String.ofList flags)))
  /-- A regular expression that does not end. -/
  | openRegExp :
      c = '/' → l.atOperand = true → Scan.pattern false l.cursor.rest.tail = none →
        ReadsFrom l c rest (l.refuse l.cursor.rest.length .unterminatedRegExp)
  /-- A regular expression with flags that are refused. -/
  | badFlags {pattern flags : List Char} {n : Nat} :
      c = '/' → l.atOperand = true → Scan.pattern false l.cursor.rest.tail = some (pattern, n) →
        Scan.flags [] (l.cursor.rest.drop (n + 1)) = .error flags →
          ReadsFrom l c rest
            (l.refuse (n + 1 + (flags.length - 1)) (.badFlags (String.ofList flags)))
  /-- A comparison of two characters. -/
  | comparisonEqual {o : Operator} :
      c = '>' ∧ o = .greaterEqual ∨ c = '<' ∧ o = .lessEqual → rest.head? = some '=' →
        ReadsFrom l c rest (l.emit 2 (.operator o))
  /-- A comparison of one character. -/
  | comparison {o : Operator} :
      c = '>' ∧ o = .greater ∨ c = '<' ∧ o = .less → rest.head? ≠ some '=' →
        ReadsFrom l c rest (l.emit 1 (.operator o))
  /-- A back-quote, which begins a template. -/
  | backquote :
      c = '\x60' →
        ReadsFrom l c rest ({ l with modes := .template :: l.modes }.emit 1 (.punct .backquote))
  /-- An opening brace. -/
  | leftBrace :
      c = '\x7b' →
        ReadsFrom l c rest
          ({ l with modes := Mode.openBrace l.modes }.emit 1 (.punct .leftBrace))
  /-- A closing brace. -/
  | rightBrace :
      c = '\x7d' →
        ReadsFrom l c rest
          ({ l with modes := Mode.closeBrace l.modes }.emit 1 (.punct .rightBrace))
  /-- Other punctuation. -/
  | punct {p : Punct} :
      c ≠ '\x60' → c ≠ '\x7b' → c ≠ '\x7d' → Punct.ofChar? c = some p →
        ReadsFrom l c rest (l.emit 1 (.punct p))
  /-- An operator of one character; a slash is one where no operand is expected. -/
  | operator {o : Operator} :
      (c = '/' → l.atOperand = false) → Operator.ofChar? c = some o →
        ReadsFrom l c rest (l.emit 1 (.operator o))
  /-- A character that begins no token. -/
  | badCharacter :
      Punct.ofChar? c = none → Operator.ofChar? c = none →
        ReadsFrom l c rest (l.refuse 0 (.badCharacter c))

/-- A token of an expression is read by the rule for its first character. -/
theorem readsFrom (l : Lexer) (c : Char) (rest : List Char) :
    l.ReadsFrom c rest (l.readFrom c rest) := by
  unfold readFrom
  split
  · next hc =>
    split
    · next hq => exact .string hc hq
    · next hq => exact .openString hc hq
  split
  · next hc =>
    split
    · next hn => exact .number hc hn
    · next hn => exact .doubleDot hc hn
  split
  · next hc => exact .word hc rfl
  split
  · next hslash =>
    unfold readRegExp
    split
    · next hp => exact .openRegExp hslash.1 hslash.2 hp
    · next hp =>
      split
      · next hf => exact .regexp hslash.1 hslash.2 hp hf
      · next hf => exact .badFlags hslash.1 hslash.2 hp hf
  -- A slash further down is a division, since no regular expression may stand here.
  next hslash =>
  split
  · next hc =>
    split
    · next heq => exact .comparisonEqual (.inl ⟨hc, rfl⟩) heq
    · next hne => exact .comparison (.inl ⟨hc, rfl⟩) hne
  split
  · next hc =>
    split
    · next heq => exact .comparisonEqual (.inr ⟨hc, rfl⟩) heq
    · next hne => exact .comparison (.inr ⟨hc, rfl⟩) hne
  split
  · next hc => exact .backquote hc
  split
  · next hc => exact .leftBrace hc
  split
  · next hc => exact .rightBrace hc
  -- The characters that change the mode are through.
  next hquote hleft hright =>
  split
  · next hp => exact .punct hquote hleft hright hp
  · next ho => exact .operator (fun hc => Bool.eq_false_iff.mpr fun ha => hslash ⟨hc, ha⟩) ho
  · next hp ho => exact .badCharacter hp ho

/-! ## Any token -/

/-- The ways in which a token is read; in an expression layout is skipped first. -/
inductive ReadsToken (l : Lexer) : Except LexError Token × Lexer → Prop where
  /-- A brace that is held back is handed out. -/
  | held : l.held = true → ReadsToken l ({ l with held := false }.emit 0 (.punct .leftBrace))
  /-- In the text of a template. -/
  | template {r : Except LexError Token × Lexer} :
      l.held = false → l.mode = .template → l.ReadsTemplate r → ReadsToken l r
  /-- The source ends in an interpolation. -/
  | openInterpolation {k : Lexer} {depth : Nat} :
      l.held = false → l.mode = .interpolation depth →
        l.forward (Scan.layout false l.cursor.rest) = k → k.cursor.rest = [] →
          ReadsToken l (k.refuse 0 .unterminatedInterpolation)
  /-- The source ends. -/
  | eof {k : Lexer} :
      l.held = false → l.mode ≠ .template → (∀ depth, l.mode ≠ .interpolation depth) →
        l.forward (Scan.layout false l.cursor.rest) = k → k.cursor.rest = [] →
          ReadsToken l (k.emit 0 .eof)
  /-- A character is left behind the layout. -/
  | expression {k : Lexer} {c : Char} {rest : List Char} {r : Except LexError Token × Lexer} :
      l.held = false → l.mode ≠ .template →
        l.forward (Scan.layout false l.cursor.rest) = k → k.cursor.rest = c :: rest →
          k.ReadsFrom c rest r → ReadsToken l r

/-- A lexer reads by the rules. -/
theorem readsToken (l : Lexer) : l.ReadsToken l.read := by
  unfold read
  split
  · next hh => exact .held hh
  next hh =>
  have hh : l.held = false := Bool.eq_false_iff.mpr hh
  split
  · next hm => exact .template hh hm l.readsTemplate
  -- Behind the layout there is either a character or the end of the source.
  next hm =>
  unfold readExpression
  simp only
  split
  · next hrest =>
    split
    · next hi => exact .openInterpolation hh hi rfl hrest
    · next hi => exact .eof hh hm hi rfl hrest
  · next hrest => exact .expression hh hm rfl hrest (readsFrom _ _ _)

end Brace.Lexer
