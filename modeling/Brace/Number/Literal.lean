/-
# Reading numbers

A decimal literal is a run of digits with at most one point among, before or after them, and
perhaps an exponent.  `Literal.read?` accepts exactly these texts; `ofText?` adds a sign and the
spelled-out numbers.
-/
import Brace.Number.Decimal

namespace Brace.Number

/-! ## Decimal literals -/

/-- The pieces of an unsigned decimal literal. -/
structure Literal where
  /-- The digits before the point. -/
  whole : List Char
  /-- The digits after the point. -/
  fraction : List Char
  /-- The power of ten behind them. -/
  exponent : Int
  deriving DecidableEq, Repr

namespace Literal

/-- The decimal that a literal spells. -/
def decimal (l : Literal) : Decimal :=
  ⟨Nat.ofDigitChars 10 (l.whole ++ l.fraction) 0, l.exponent - l.fraction.length⟩

/-- The double nearest to a literal. -/
def value (l : Literal) : Float := l.decimal.toFloat

/-- Reads an exponent with an optional sign and at least one digit. -/
def readExponent? : List Char → Option Int
  | '+' :: digits => magnitude? digits
  | '-' :: digits => (magnitude? digits).map (- ·)
  | digits => magnitude? digits
where
  /-- Reads a non-empty run of digits. -/
  magnitude? (digits : List Char) : Option Int :=
    if digits.isEmpty || !digits.all Char.isDigit then none
    else some (Nat.ofDigitChars 10 digits 0)

/-- Reads a whole text as an unsigned decimal literal. -/
def read? (cs : List Char) : Option Literal :=
  let whole := cs.takeWhile Char.isDigit
  let afterWhole := cs.dropWhile Char.isDigit
  let (fraction, rest) :=
    match afterWhole with
    | '.' :: more => (more.takeWhile Char.isDigit, more.dropWhile Char.isDigit)
    | _ => ([], afterWhole)
  -- Digits may be missing on one side of the point, but not on both.
  if whole.isEmpty && fraction.isEmpty then none
  else
    match rest with
    | [] => some ⟨whole, fraction, 0⟩
    | c :: more =>
      if c = 'e' ∨ c = 'E' then (readExponent? more).map (⟨whole, fraction, ·⟩) else none

end Literal

/-! ## Signs and spelled-out numbers -/

/-- Splits off a leading sign; the first answer says whether it is a minus. -/
def splitSign : List Char → Bool × List Char
  | '+' :: rest => (false, rest)
  | '-' :: rest => (true, rest)
  | rest => (false, rest)

/-- Reads a whole text as a number: an optional sign, then a decimal literal or, in letters of
either case, `inf`, `infinity` or `nan`. -/
def ofText? (s : String) : Option Float :=
  let (negative, rest) := splitSign s.toList
  let word := String.ofList (rest.map Char.toLower)
  if word = "inf" ∨ word = "infinity" then some (signed negative infinity)
  else if word = "nan" then some nan
  else (Literal.read? rest).map fun l => signed negative l.value

end Brace.Number
