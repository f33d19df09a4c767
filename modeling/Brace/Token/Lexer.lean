/-
# The lexer

A lexer hands out the tokens of a source one by one.  It is in one of three modes: in an
expression, in the text of a template, or in an expression inside a template.  Modes nest, and the
innermost one is on top of a stack.  A lexer can be asked again after an error; it then goes on
where the error left it.

The main statement is about progress: a token other than the end of the source makes the lexer
smaller (`Lexer.size_next_lt`).
-/
import Brace.Source.LexError
import Brace.Token.Scan

namespace Brace

/-! ## Modes -/

/-- What kind of text a lexer is in. -/
inductive Mode where
  /-- An expression. -/
  | expression
  /-- The text of a template. -/
  | template
  /-- An expression inside a template, with the number of braces open in it. -/
  | interpolation (depth : Nat)
  deriving DecidableEq, Repr, Inhabited

/-- The modes behind an opening brace: inside a template it opens one more brace. -/
def Mode.openBrace : List Mode → List Mode
  | interpolation depth :: outer => interpolation (depth + 1) :: outer
  | modes => modes

/-- The modes behind a closing brace: inside a template it closes a brace, or the interpolation if
none is open. -/
def Mode.closeBrace : List Mode → List Mode
  | interpolation 0 :: outer => outer
  | interpolation (depth + 1) :: outer => interpolation depth :: outer
  | modes => modes

/-! ## The lexer -/

/-- The state of reading tokens. -/
structure Lexer where
  /-- The characters still to be read. -/
  cursor : Cursor
  /-- The modes, the innermost one first. -/
  modes : List Mode
  /-- Whether the brace that opens an interpolation has been read but not handed out. -/
  held : Bool
  /-- The token handed out last. -/
  previous : Option Token
  deriving DecidableEq, Repr, Inhabited

namespace Lexer

/-- The lexer at the start of a source. -/
def ofString (source : String) : Lexer := ⟨.ofString source, [.expression], false, none⟩

/-- Where the lexer stands. -/
def position (l : Lexer) : Position := l.cursor.position

/-- The innermost mode. -/
def mode (l : Lexer) : Mode := l.modes.head?.getD .expression

/-- The same lexer with the cursor moved over the next `n` characters. -/
def forward (l : Lexer) (n : Nat) : Lexer := { l with cursor := l.cursor.forward n }

/-- Whether a slash would begin a regular expression here. -/
def atOperand (l : Lexer) : Bool :=
  match l.previous with
  | none => true
  | some t => t.expectsOperand

/-- Hands out a token for which the next `n` characters are taken. -/
def emit (l : Lexer) (n : Nat) (t : Token) : Except LexError Token × Lexer :=
  (.ok t, l.forward n)

/-- Reports a fault after taking the next `n` characters. -/
def refuse (l : Lexer) (n : Nat) (fault : LexFault) : Except LexError Token × Lexer :=
  (.error ((l.cursor.forward n).fail fault), l.forward n)

/-! ## One token -/

/-- Reads the text of a template up to the next interpolation or the closing back-quote. -/
def readTemplate (l : Lexer) : Except LexError Token × Lexer :=
  let run := Scan.template false l.cursor.rest
  match run.stop, run.text with
  | .endOfSource, _ => l.refuse run.length .unterminatedTemplate
  | .backquote, [] =>
    { l with modes := l.modes.tail }.emit (run.length + 1) (.punct .backquote)
  | .backquote, text => l.emit run.length (.string (String.ofList text))
  | .interpolation, [] =>
    { l with modes := .interpolation 0 :: l.modes }.emit run.length (.punct .leftBrace)
  | .interpolation, text =>
    { l with modes := .interpolation 0 :: l.modes, held := true }.emit run.length
      (.string (String.ofList text))

/-- Reads a regular expression; the cursor stands at its first slash. -/
def readRegExp (l : Lexer) : Except LexError Token × Lexer :=
  match Scan.pattern false l.cursor.rest.tail with
  | none => l.refuse l.cursor.rest.length .unterminatedRegExp
  | some (pattern, n) =>
    match Scan.flags [] (l.cursor.rest.drop (n + 1)) with
    | .ok flags =>
      l.emit (n + 1 + flags.length) (.regexp (String.ofList pattern) (String.ofList flags))
    | .error flags => l.refuse (n + 1 + (flags.length - 1)) (.badFlags (String.ofList flags))

/-- Reads a token of an expression whose first character is `c`. -/
def readFrom (l : Lexer) (c : Char) (rest : List Char) : Except LexError Token × Lexer :=
  if c = '"' ∨ c = '\'' then
    match Scan.quoted c rest with
    | some (text, n) => l.emit (n + 1) (.string (String.ofList text))
    | none => l.refuse (rest.length + 1) .unterminatedString
  else if c.isDigit then
    match Scan.number (c :: rest) with
    | (some literal, n) => l.emit n (.number literal.value)
    | (none, n) => l.refuse n .doubleDot
  else if Scan.isNameStart c then
    let word := rest.takeWhile Scan.isNameChar
    l.emit (word.length + 1) (Token.ofWord (String.ofList (c :: word)))
  -- Anywhere else a slash is the operator, which is found in the table at the end.
  else if c = '/' ∧ l.atOperand then l.readRegExp
  else if c = '>' then
    if rest.head? = some '=' then l.emit 2 (.operator .greaterEqual)
    else l.emit 1 (.operator .greater)
  else if c = '<' then
    if rest.head? = some '=' then l.emit 2 (.operator .lessEqual)
    else l.emit 1 (.operator .less)
  -- These three change the mode of what is behind them.
  else if c = '\x60' then
    { l with modes := .template :: l.modes }.emit 1 (.punct .backquote)
  else if c = '\x7b' then
    { l with modes := Mode.openBrace l.modes }.emit 1 (.punct .leftBrace)
  else if c = '\x7d' then
    { l with modes := Mode.closeBrace l.modes }.emit 1 (.punct .rightBrace)
  else
    match Punct.ofChar? c, Operator.ofChar? c with
    | some p, _ => l.emit 1 (.punct p)
    | none, some op => l.emit 1 (.operator op)
    | none, none => l.refuse 0 (.badCharacter c)

/-- Skips layout and reads a token of an expression. -/
def readExpression (l : Lexer) : Except LexError Token × Lexer :=
  let l := l.forward (Scan.layout false l.cursor.rest)
  match l.cursor.rest with
  | [] =>
    match l.mode with
    | .interpolation _ => l.refuse 0 .unterminatedInterpolation
    | _ => l.emit 0 .eof
  | c :: rest => l.readFrom c rest

/-- Reads a token. -/
def read (l : Lexer) : Except LexError Token × Lexer :=
  if l.held then ({ l with held := false }).emit 0 (.punct .leftBrace)
  else
    match l.mode with
    | .template => l.readTemplate
    | _ => l.readExpression

/-- Remembers the token that is handed out; the end of the source is not remembered. -/
def remember (t : Token) (l : Lexer) : Lexer :=
  if t = .eof then l else { l with previous := some t }

/-- Hands out the next token. -/
def next (l : Lexer) : Except LexError Token × Lexer :=
  match l.read with
  | (.ok t, l) => (.ok t, l.remember t)
  | (.error e, l) => (.error e, l)

/-! ## Progress -/

/-- The size of a lexer: twice the number of characters left, and one more for a held brace. -/
def size (l : Lexer) : Nat := 2 * l.cursor.rest.length + l.held.toNat

/-- What a call may do to the size of a lexer: it never grows, and a token other than the end of
the source makes it smaller. -/
def Shrinks (l : Lexer) (r : Except LexError Token × Lexer) : Prop :=
  r.2.size ≤ l.size ∧ ∀ t, r.1 = .ok t → t ≠ .eof → r.2.size < l.size

/-- Moving forward does not make a lexer larger. -/
theorem size_forward_le (l : Lexer) (n : Nat) : (l.forward n).size ≤ l.size := by
  simp only [size, forward, Cursor.forward_rest, List.length_drop]
  omega

/-- Moving over a character makes a lexer smaller. -/
theorem size_forward_lt (l : Lexer) {n : Nat} (hn : 0 < n) (h : l.cursor.rest ≠ []) :
    (l.forward n).size < l.size := by
  have := List.length_pos_iff.mpr h
  simp only [size, forward, Cursor.forward_rest, List.length_drop]
  omega

theorem shrinks_refuse (l : Lexer) (n : Nat) (fault : LexFault) :
    Shrinks l (l.refuse n fault) :=
  ⟨size_forward_le l n, fun _ h => nomatch h⟩

theorem shrinks_emit (l : Lexer) (modes : List Mode) {n : Nat} (t : Token) (hn : 0 < n)
    (h : l.cursor.rest ≠ []) : Shrinks l ({ l with modes := modes }.emit n t) :=
  have lt := size_forward_lt { l with modes := modes } hn h
  ⟨Nat.le_of_lt lt, fun _ _ _ => lt⟩

theorem shrinks_readTemplate (l : Lexer) : Shrinks l l.readTemplate := by
  have le := Scan.template_length_le false l.cursor.rest
  have textLe := Scan.template_text_length_le false l.cursor.rest
  have lt := Scan.template_length_lt false l.cursor.rest
  have pos := Scan.template_length_pos l.cursor.rest
  have rest (h : 0 < l.cursor.rest.length) : l.cursor.rest ≠ [] := List.length_pos_iff.mp h
  unfold readTemplate
  simp only
  split
  · exact shrinks_refuse ..
  · next stop text =>
    exact shrinks_emit _ _ _ (by omega) (rest (by have := lt stop; omega))
  · next stop text =>
    have := lt stop
    have : 0 < (Scan.template false l.cursor.rest).text.length := List.length_pos_iff.mpr text
    exact shrinks_emit l l.modes _ (by omega) (rest (by omega))
  · next stop text =>
    have := pos stop
    exact shrinks_emit _ _ _ this (rest (by omega))
  · next stop text =>
    have := pos stop
    constructor
    · simp only [emit, forward, size, Cursor.forward_rest, List.length_drop, Bool.toNat_true]
      omega
    · intro _ _ _
      simp only [emit, forward, size, Cursor.forward_rest, List.length_drop, Bool.toNat_true]
      omega

theorem shrinks_readRegExp (l : Lexer) (h : l.cursor.rest ≠ []) : Shrinks l l.readRegExp := by
  unfold readRegExp
  split
  · exact shrinks_refuse ..
  · split
    · exact shrinks_emit l l.modes _ (by omega) h
    · exact shrinks_refuse ..

theorem number_length_pos {c : Char} (hc : c.isDigit) (rest : List Char) :
    0 < (Scan.number (c :: rest)).2 := by
  unfold Scan.number
  simp only [List.takeWhile_cons, hc, if_true, List.length_cons]
  split
  · split <;> simp only <;> omega
  · simp

theorem shrinks_readFrom (l : Lexer) {c : Char} {rest : List Char}
    (h : l.cursor.rest = c :: rest) : Shrinks l (l.readFrom c rest) := by
  have ne : l.cursor.rest ≠ [] := by simp [h]
  have emits (modes : List Mode) {n : Nat} (t : Token) (hn : 0 < n) :
      Shrinks l ({ l with modes := modes }.emit n t) := shrinks_emit l modes t hn ne
  unfold readFrom
  split
  · split
    · exact emits l.modes _ (by omega)
    · exact shrinks_refuse ..
  split
  · next hc =>
    have pos := number_length_pos hc rest
    split
    · next n hn =>
      rw [hn] at pos
      exact emits l.modes _ pos
    · exact shrinks_refuse ..
  split
  · exact emits l.modes _ (by omega)
  split
  · exact shrinks_readRegExp l ne
  split
  · split <;> exact emits l.modes _ (by omega)
  split
  · split <;> exact emits l.modes _ (by omega)
  split
  · exact emits _ _ (by omega)
  split
  · exact emits _ _ (by omega)
  split
  · exact emits _ _ (by omega)
  split
  · exact emits l.modes _ (by omega)
  · exact emits l.modes _ (by omega)
  · exact shrinks_refuse ..

theorem shrinks_readExpression (l : Lexer) : Shrinks l l.readExpression := by
  have le := size_forward_le l (Scan.layout false l.cursor.rest)
  have weaken {r : Except LexError Token × Lexer}
      (h : Shrinks (l.forward (Scan.layout false l.cursor.rest)) r) : Shrinks l r :=
    ⟨Nat.le_trans h.1 le, fun t ht hne => Nat.lt_of_lt_of_le (h.2 t ht hne) le⟩
  unfold readExpression
  simp only
  split
  · split
    · exact weaken (shrinks_refuse ..)
    · refine weaken ⟨size_forward_le _ 0, fun t ht hne => ?_⟩
      cases ht
      exact absurd rfl hne
  · next h => exact weaken (shrinks_readFrom _ h)

theorem shrinks_read (l : Lexer) : Shrinks l l.read := by
  unfold read
  split
  · next h =>
    have lt : (({ l with held := false } : Lexer).forward 0).size < l.size := by
      simp [size, forward, h]
    exact ⟨Nat.le_of_lt lt, fun _ _ _ => lt⟩
  · split
    · exact shrinks_readTemplate l
    · exact shrinks_readExpression l

@[simp]
theorem size_remember (l : Lexer) (t : Token) : (l.remember t).size = l.size := by
  unfold remember
  split <;> rfl

theorem shrinks_next (l : Lexer) : Shrinks l l.next := by
  have h := shrinks_read l
  unfold next
  split
  · next hr =>
    rw [hr] at h
    exact ⟨by simpa using h.1, by simpa using h.2⟩
  · next hr =>
    rw [hr] at h
    exact ⟨h.1, fun _ he => nomatch he⟩

/-- A token other than the end of the source makes the lexer smaller. -/
theorem size_next_lt {l l' : Lexer} {t : Token} (h : l.next = (.ok t, l')) (ht : t ≠ .eof) :
    l'.size < l.size := by
  have := (shrinks_next l).2 t
  rw [h] at this
  exact this rfl ht

end Lexer

end Brace
