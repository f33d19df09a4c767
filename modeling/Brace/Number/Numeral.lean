/-
# Numbers spelled in texts

Where a number is wanted, a text counts as the number that it spells.  White space around it does
not matter, and the empty text spells zero.  Otherwise it is a whole number in base 2, 8 or 16
behind a mark for the base, or an optional sign with `Infinity` or a decimal literal behind it.
Every other text spells no number.
-/
import Brace.Number.Literal
import Brace.Number.Radix
import Brace.Text.WhiteSpace

namespace Brace.Number

/-! ## Numerals -/

/-- A text that spells a number. -/
inductive Numeral where
  /-- The empty text. -/
  | blank
  /-- Digits of a base. -/
  | radix (r : Radix) (digits : List Nat)
  /-- An infinity. -/
  | infinite (negative : Bool)
  /-- A decimal literal with its sign. -/
  | decimal (negative : Bool) (l : Literal)
  deriving DecidableEq, Repr

namespace Numeral

/-! ## Values -/

/-- The number that digits spell, rounded after every digit. -/
def radixValue (r : Radix) (digits : List Nat) : Float :=
  digits.foldl (fun x d => x * Number.ofNat r.base + Number.ofNat d) 0

/-- The number that a numeral spells. -/
def value : Numeral → Float
  | blank => 0
  | radix r digits => radixValue r digits
  | infinite negative => signed negative infinity
  | decimal negative l => signed negative l.value

/-! ## Reading -/

/-- Reads a whole text as an optional sign and `Infinity` or a decimal literal. -/
def readSigned? (cs : List Char) : Option Numeral :=
  let (negative, rest) := splitSign cs
  if rest = "Infinity".toList then some (infinite negative)
  else (Literal.read? rest).map (decimal negative)

/-- Reads a whole text without white space at its ends as a numeral. -/
def readTrimmed? : List Char → Option Numeral
  | [] => some blank
  | '0' :: mark :: digits =>
    match Radix.ofMark? mark with
    | some r => if digits.isEmpty then none else (digits.mapM r.digit?).map (radix r)
    -- Only digits of base ten may have a sign in front.
    | none => readSigned? ('0' :: mark :: digits)
  | cs => readSigned? cs

/-- Reads a whole text as a numeral. -/
def read? (s : String) : Option Numeral := readTrimmed? (Text.trim s.toList)

end Numeral

/-- The number that a text spells, or the value that is not a number. -/
def ofSpelling (s : String) : Float :=
  match Numeral.read? s with
  | some n => n.value
  | none => nan

end Brace.Number
