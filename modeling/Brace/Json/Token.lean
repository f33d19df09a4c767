/-
# The tokens of JSON

A JSON text is cut into brackets, separators and scalar values; blanks between them are dropped.
A scanning function answers what it read together with the number of characters that it took, so
that cutting goes on behind them.
-/
import Brace.Json.Number
import Brace.Number.Radix
import Brace.Text.Quoted

namespace Brace.Json

/-- Why a text is not JSON. -/
inductive ReadError where
  /-- The text breaks off. -/
  | unexpectedEnd
  /-- A character stands where it may not. -/
  | unexpected (c : Char)
  /-- A string holds an escape that names no character. -/
  | badEscape
  /-- A number is beyond the largest double. -/
  | outOfRange
  /-- A bracket, separator or value stands where it may not. -/
  | misplaced
  /-- Lists and objects are nested too deeply. -/
  | tooDeep
  deriving DecidableEq, Repr

/-- What is wrong, in words. -/
def ReadError.message : ReadError → String
  | unexpectedEnd => "unexpected end of input"
  | unexpected c => "unexpected character " ++ Text.quoted c.toString
  | badEscape => "invalid escape"
  | outOfRange => "number out of range"
  | misplaced => "misplaced bracket, separator or value"
  | tooDeep => "recursion limit exceeded"

/-- A piece of a JSON text. -/
inductive Token where
  /-- The bracket that opens a list. -/
  | openArray
  /-- The bracket that closes a list. -/
  | closeArray
  /-- The brace that opens an object. -/
  | openObject
  /-- The brace that closes an object. -/
  | closeObject
  /-- A comma. -/
  | comma
  /-- A colon. -/
  | colon
  /-- A value without parts. -/
  | scalar (j : Json)
  deriving Repr

/-! ## Strings -/

/-- The value of four hexadecimal digits. -/
def hexWord? (a b c d : Char) : Option Nat := Number.Radix.hexadecimal.natOf? [a, b, c, d]

/-- The character that a one-letter escape stands for. -/
def escaped? : Char → Option Char
  | '"' => some '"'
  | '\\' => some '\\'
  | '/' => some '/'
  | 'b' => some (Char.ofNat 8)
  | 'f' => some (Char.ofNat 12)
  | 'n' => some '\n'
  | 'r' => some '\r'
  | 't' => some '\t'
  | _ => none

/-- Whether a number is the first half of a surrogate pair. -/
def isHighSurrogate (n : Nat) : Bool := 0xD800 ≤ n && n < 0xDC00

/-- Whether a number is the second half of a surrogate pair. -/
def isLowSurrogate (n : Nat) : Bool := 0xDC00 ≤ n && n < 0xE000

/-- Reads the inside of a string and its closing quote.  `acc` holds the characters read so far,
the last one first, and `n` the number of characters taken. -/
def scanString (acc : List Char) (n : Nat) : List Char → Except ReadError (String × Nat)
  | [] => .error .unexpectedEnd
  | '"' :: _ => .ok (String.ofList acc.reverse, n + 1)
  | '\\' :: 'u' :: a :: b :: c :: d :: '\\' :: 'u' :: e :: f :: g :: h :: rest =>
    match hexWord? a b c d, hexWord? e f g h with
    | some high, some low =>
      if isHighSurrogate high && isLowSurrogate low then
        let code := 0x10000 + (high - 0xD800) * 0x400 + (low - 0xDC00)
        scanString (Char.ofNat code :: acc) (n + 12) rest
      -- A surrogate must stand in a pair, the high one first.
      else if isHighSurrogate high || isLowSurrogate high then .error .badEscape
      else scanString (Char.ofNat high :: acc) (n + 6) ('\\' :: 'u' :: e :: f :: g :: h :: rest)
    | _, _ => .error .badEscape
  | '\\' :: 'u' :: a :: b :: c :: d :: rest =>
    match hexWord? a b c d with
    | some code =>
      if isHighSurrogate code || isLowSurrogate code then .error .badEscape
      else scanString (Char.ofNat code :: acc) (n + 6) rest
    | none => .error .badEscape
  | '\\' :: c :: rest =>
    match escaped? c with
    | some c => scanString (c :: acc) (n + 2) rest
    | none => .error .badEscape
  | c :: rest =>
    -- A backslash at the end of the text has nothing to escape.
    if c.toNat < 32 || c == '\\' then .error (.unexpected c)
    else scanString (c :: acc) (n + 1) rest

/-! ## Numbers -/

/-- The error of a text that goes on with something other than a digit. -/
def noDigit : List Char → ReadError
  | [] => .unexpectedEnd
  | c :: _ => .unexpected c

/-- Reads a point and the digits behind it, of which there must be some; nothing is taken where no
point stands. -/
def scanFraction : List Char → Except ReadError (List Char × Nat)
  | '.' :: rest =>
    let digits := rest.takeWhile Char.isDigit
    if digits.isEmpty then .error (noDigit rest) else .ok (digits, digits.length + 1)
  | _ => .ok ([], 0)

/-- Reads an exponent, if one is written. -/
def scanExponent : List Char → Except ReadError (Option Int × Nat)
  | [] => .ok (none, 0)
  | c :: rest =>
    if c = 'e' ∨ c = 'E' then
      let (negative, sign) : Bool × Nat :=
        match rest with
        | '-' :: _ => (true, 1)
        | '+' :: _ => (false, 1)
        | _ => (false, 0)
      let digits := (rest.drop sign).takeWhile Char.isDigit
      let magnitude : Int := Nat.ofDigitChars 10 digits 0
      if digits.isEmpty then .error (noDigit (rest.drop sign))
      else .ok (some (if negative then -magnitude else magnitude), 1 + sign + digits.length)
    else .ok (none, 0)

/-- Reads an unsigned number.  Only a single zero may stand before the point. -/
def scanNumber (negative : Bool) (cs : List Char) : Except ReadError (Json × Nat) := do
  let run := cs.takeWhile Char.isDigit
  if run.isEmpty then throw (noDigit cs)
  if run.head? = some '0' ∧ 1 < run.length then throw (.unexpected '0')
  let rest := cs.drop run.length
  let (fraction, n) ← scanFraction rest
  let (exponent, m) ← scanExponent (rest.drop n)
  match (Numeral.mk negative run fraction exponent).value? with
  | some j => pure (j, run.length + n + m)
  | none => throw .outOfRange

/-! ## Tokens -/

/-- Whether a character is a blank. -/
def isBlank (c : Char) : Bool := c == ' ' || c == '\t' || c == '\n' || c == '\r'

/-- The scalar `j`, written as `c` followed by `word`. -/
def scanWord (j : Json) (word rest : List Char) : Except ReadError (Token × Nat) :=
  if word.isPrefixOf rest then .ok (.scalar j, word.length) else .error .misplaced

/-- Reads the token that begins with `c`, followed by `rest`; the count is that of the characters
taken from `rest`. -/
def scanToken (c : Char) (rest : List Char) : Except ReadError (Token × Nat) :=
  match c with
  | '[' => .ok (.openArray, 0)
  | ']' => .ok (.closeArray, 0)
  | '\x7b' => .ok (.openObject, 0)
  | '\x7d' => .ok (.closeObject, 0)
  | ',' => .ok (.comma, 0)
  | ':' => .ok (.colon, 0)
  | 'n' => scanWord .null ['u', 'l', 'l'] rest
  | 't' => scanWord (.bool true) ['r', 'u', 'e'] rest
  | 'f' => scanWord (.bool false) ['a', 'l', 's', 'e'] rest
  | '"' => (scanString [] 0 rest).map fun (s, n) => (.scalar (.string s), n)
  | '-' => (scanNumber true rest).map fun (j, n) => (.scalar j, n)
  | c =>
    if c.isDigit then (scanNumber false (c :: rest)).map fun (j, n) => (.scalar j, n - 1)
    else .error (.unexpected c)

/-- Cuts a text into tokens. -/
def tokens (cs : List Char) : Except ReadError (List Token) :=
  match cs with
  | [] => .ok []
  | c :: rest =>
    if isBlank c then tokens rest
    else
      match scanToken c rest with
      | .error e => .error e
      | .ok (t, n) =>
        match tokens (rest.drop n) with
        | .error e => .error e
        | .ok ts => .ok (t :: ts)
termination_by cs.length
decreasing_by
  · simp
  · simp only [List.length_drop, List.length_cons]
    omega

end Brace.Json
