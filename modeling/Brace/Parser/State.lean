/-
# The state of parsing

A parser looks at one token and has the stream of the tokens behind it.  Its size is the number
of tokens it can still pass.  A reading function answers `Parsed n`: an error with the state in
which it left the parser, or a result with a state that is smaller than `n`.  The bounds are what
the grammar's recursion terminates by.
-/
import Brace.Node.Source
import Brace.Token.Stream

namespace Brace

/-! ## Errors -/

/-- How tokens can break the grammar. -/
inductive SyntaxFault where
  /-- A token where an operand is wanted. -/
  | unexpected (found : Token)
  /-- Another token in the place of punctuation. -/
  | expected (p : Punct) (found : Token)
  /-- An assignment to something other than a variable. -/
  | badTarget (target : Node)
  /-- A key of an object literal that is neither a name nor a text nor a number. -/
  | badKey (key : Node)
  deriving Inhabited

/-- The wording of a fault. -/
def SyntaxFault.message : SyntaxFault → String
  | unexpected t => "Unexpected token: " ++ t.text
  | expected p t => "Expecting punctuation: \"" ++ p.char.toString ++ "\", got " ++ t.text
  | badTarget n => "You can only assign to an identifier, not `" ++ n.source ++ "`"
  | badKey n =>
    "Object key should only be identifier, string or number, instead of `" ++ n.source ++ "`"

/-- Why a source cannot be parsed. -/
inductive ParseError where
  /-- A malformed token. -/
  | lex (e : LexError)
  /-- Well-formed tokens in an order that the grammar does not allow. -/
  | malformed (fault : SyntaxFault) (position : Position)
  /-- A node other than a variable where a variable is wanted. -/
  | notIdentifier (found : Node)
  deriving Inhabited

namespace ParseError

/-- The wording of an error. -/
def message : ParseError → String
  | lex e => e.text
  | malformed fault position => fault.message ++ " (" ++ position.text ++ ")"
  | notIdentifier n =>
    "data binding target has to be an identifier instead of `" ++ n.source ++ "`"

/-- The place of an error, if it has one. -/
def position? : ParseError → Option Position
  | lex e => some e.position
  | malformed _ position => some position
  | notIdentifier _ => none

end ParseError

/-! ## States -/

/-- The state of parsing. -/
structure Parser where
  /-- The token to be parsed next. -/
  current : Token
  /-- The place behind the token that was read last. -/
  position : Position
  /-- The tokens behind the current one. -/
  stream : TokenStream
  deriving Inhabited

namespace Parser

/-- The number of tokens that a parser can still pass. -/
def size (s : Parser) : Nat := s.stream.ahead.length + if s.current = .eof then 0 else 1

/-- The parser at the first token of a stream. -/
def start (stream : TokenStream) : Except ParseError Parser :=
  match stream.next with
  | (.ok (t, position), stream) => .ok ⟨t, position, stream⟩
  | (.error e, _) => .error (.lex e)

/-- The error with the given fault at the place of the parser. -/
def error (s : Parser) (fault : SyntaxFault) : ParseError := .malformed fault s.position

/-- The error of a token where an operand is wanted. -/
def unexpected (s : Parser) : ParseError := s.error (.unexpected s.current)

end Parser

/-! ## Answers -/

/-- The answer of a reading function that may use states smaller than `n`. -/
inductive Parsed (n : Nat) (α : Type) where
  /-- An error, and the parser as the error left it. -/
  | fail (e : ParseError) (left : Parser)
  /-- A result, and the parser behind it. -/
  | done (a : α) (left : Parser) (size_lt : left.size < n)

namespace Parsed

/-- Goes on with the result and the smaller state. -/
def andThen {m n : Nat} {α β : Type} (r : Parsed m α)
    (k : (a : α) → (t : Parser) → t.size < m → Parsed n β) : Parsed n β :=
  match r with
  | fail e left => .fail e left
  | done a left h => k a left h

/-- Applies a function to the result. -/
def map {n : Nat} {α β : Type} (f : α → β) (r : Parsed n α) : Parsed n β :=
  r.andThen fun a t h => .done (f a) t h

/-- A larger bound for the same answer. -/
def weaken {m n : Nat} {α : Type} (h : m ≤ n) (r : Parsed m α) : Parsed n α :=
  r.andThen fun a t ht => .done a t (Nat.lt_of_lt_of_le ht h)

/-- The result or the error, without the state. -/
def toExcept {n : Nat} {α : Type} : Parsed n α → Except ParseError α
  | fail e _ => .error e
  | done a _ _ => .ok a

/-- The parser behind the result or as the error left it. -/
def left {n : Nat} {α : Type} : Parsed n α → Parser
  | fail _ s => s
  | done _ s _ => s

end Parsed

/-! ## Passing tokens -/

namespace Parser

/-- Passes the current token.  If the next one is malformed, the current one stays. -/
def advance (s : Parser) (h : s.current ≠ .eof) : Parsed s.size Unit :=
  match hs : s.stream.next with
  | (.error e, stream) => .fail (.lex e) { s with position := e.position, stream := stream }
  | (.ok (t, position), stream) =>
    .done () ⟨t, position, stream⟩ <| by
      unfold TokenStream.next at hs
      simp only [size, h, if_false]
      split at hs
      · next ha =>
        cases hs
        simp only [ha, List.length_cons]
        split <;> omega
      · cases hs
        simp
      · cases hs

/-- Passes the given punctuation. -/
def expect (p : Punct) (s : Parser) : Parsed s.size Unit :=
  if h : s.current = .punct p then s.advance (by simp [h])
  else .fail (s.error (.expected p s.current)) s

end Parser

end Brace
