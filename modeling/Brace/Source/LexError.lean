/-
# What can be wrong with a token

A malformed token is reported with its cause and the place where reading stopped.  The wording
of every cause is in `LexFault.message`.
-/
import Brace.Source.Cursor

namespace Brace

/-- Why a token cannot be read. -/
inductive LexFault where
  /-- A quoted string without its closing quote. -/
  | unterminatedString
  /-- A template without its closing back-quote. -/
  | unterminatedTemplate
  /-- A source that ends inside the braces of a template. -/
  | unterminatedInterpolation
  /-- A regular expression without its closing slash. -/
  | unterminatedRegExp
  /-- A number with a second decimal point. -/
  | doubleDot
  /-- Flags of a regular expression, up to and including the first character that is no flag. -/
  | badFlags (flags : String)
  /-- A character that starts no token. -/
  | badCharacter (c : Char)
  /-- A fault reported in the words of the caller. -/
  | stated (message : String)
  deriving DecidableEq, Repr

/-- The wording of a fault. -/
def LexFault.message : LexFault → String
  | unterminatedString => "Unterminated string, missing closing quote"
  | unterminatedTemplate => "Unterminated template literal, expected '`'"
  | unterminatedInterpolation => "Unterminated template expression, expected '\x7d'"
  | unterminatedRegExp => "Unterminated regular expression, expected '/'"
  | doubleDot => "Unexpected token: '.', double dot in a number"
  | badFlags flags => "Invalid regular expression flags: \"" ++ flags ++ "\""
  | badCharacter c => "Can't handle character: " ++ c.toString
  | stated message => message

/-- A fault and the place where reading stopped. -/
structure LexError where
  /-- What is wrong. -/
  fault : LexFault
  /-- Where reading stopped. -/
  position : Position
  deriving DecidableEq, Repr

/-- The wording with the place behind it. -/
def LexError.text (e : LexError) : String :=
  e.fault.message ++ " (" ++ e.position.text ++ ")"

/-- Reports a fault at the place of the cursor. -/
def Cursor.fail (k : Cursor) (fault : LexFault) : LexError := ⟨fault, k.position⟩

end Brace
