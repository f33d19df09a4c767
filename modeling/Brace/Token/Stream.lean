/-
# The tokens of a whole source

Which tokens a lexer hands out depends on the source alone, so all of them can be read in advance.
A token stream holds every answer of a lexer up to the point from which it answers the same for
ever: the end of the source, or an error that leaves the lexer where it is.
-/
import Brace.Token.Lexer

namespace Brace

/-- An answer of a lexer: a token with the place of the lexer behind it, or an error. -/
abbrev Lexeme := Except LexError (Token × Position)

/-- The answer that a lexer repeats for ever. -/
inductive Ending where
  /-- The end of the source. -/
  | eof (position : Position)
  /-- An error at which the lexer is stuck. -/
  | stuck (e : LexError)
  deriving DecidableEq, Repr, Inhabited

/-- All answers of a lexer. -/
structure TokenStream where
  /-- The answers before the last one. -/
  ahead : List Lexeme
  /-- The answer that is repeated for ever. -/
  ending : Ending
  deriving Inhabited

namespace TokenStream

/-- The stream with one more answer in front. -/
def cons (x : Lexeme) (s : TokenStream) : TokenStream := ⟨x :: s.ahead, s.ending⟩

/-- The next answer, and the stream behind it. -/
def next (s : TokenStream) : Lexeme × TokenStream :=
  match s.ahead, s.ending with
  | x :: ahead, _ => (x, ⟨ahead, s.ending⟩)
  | [], .eof position => (.ok (.eof, position), s)
  | [], .stuck e => (.error e, s)

end TokenStream

/-- All answers of a lexer, in order. -/
def Lexer.stream (l : Lexer) : TokenStream :=
  match h : l.next with
  | (.ok t, l') =>
    if ht : t = .eof then ⟨[], .eof l'.position⟩
    else
      have := size_next_lt h ht
      l'.stream.cons (.ok (t, l'.position))
  | (.error e, l') =>
    if l'.size < l.size then l'.stream.cons (.error e) else ⟨[], .stuck e⟩
termination_by l.size

/-- The tokens of a source. -/
def TokenStream.ofString (source : String) : TokenStream := (Lexer.ofString source).stream

/-! ## Reading one by one -/

/-- A lexer that is asked until its first error or the end of the source. -/
structure TokenIterator where
  /-- The lexer. -/
  lexer : Lexer
  /-- Whether an error or the end has been met. -/
  finished : Bool
  deriving Inhabited

namespace TokenIterator

/-- The iterator at the start of a source. -/
def ofString (source : String) : TokenIterator := ⟨.ofString source, false⟩

/-- The next token or the first error; nothing behind it or at the end of the source. -/
def next? (i : TokenIterator) : Option (Except LexError Token) × TokenIterator :=
  if i.finished then (none, i)
  else
    match i.lexer.next with
    | (.ok t, lexer) => if t = .eof then (none, ⟨lexer, true⟩) else (some (.ok t), ⟨lexer, false⟩)
    | (.error e, lexer) => (some (.error e), ⟨lexer, true⟩)

end TokenIterator

end Brace
