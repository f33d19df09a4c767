/-
# Numbers in JSON texts

A number without fraction and exponent that fits into 64 bits stays a whole number.  Any other
number is read in two steps: as many leading digits as fit into 64 bits are rounded to a double,
and that double is multiplied or divided by a power of ten.  Both steps round, so the result can
be a neighbour of the nearest double.
-/
import Brace.Json.Basic
import Brace.Number.Decimal

namespace Brace.Json

/-! ## Digits that fit into a word -/

/-- The largest number of 64 bits. -/
def wordMax : Nat := UInt64.size - 1

/-- Appends digits to `significand` while the result fits into 64 bits; answers the result and the
digits left over. -/
def takeWord (significand : Nat) : List Char → Nat × List Char
  | [] => (significand, [])
  | c :: rest =>
    let next := 10 * significand + (c.toNat - '0'.toNat)
    if wordMax < next then (significand, c :: rest) else takeWord next rest

/-! ## Powers of ten -/

/-- The double nearest to `10 ^ n`. -/
def powerOfTen (n : Nat) : Float := Number.Decimal.toFloat ⟨1, n⟩

/-- `x * 10 ^ exponent` in double arithmetic, by powers up to `10 ^ 308`; `none` if the result is
infinite. -/
def scaleFloat (x : Float) (exponent : Int) : Option Float :=
  if exponent.natAbs ≤ 308 then
    if 0 ≤ exponent then
      let y := x * powerOfTen exponent.natAbs
      if y.isInf then none else some y
    else some (x / powerOfTen exponent.natAbs)
  else if x == 0 then some x
  else if h : 0 ≤ exponent then none
  else scaleFloat (x / powerOfTen 308) (exponent + 308)
termination_by exponent.natAbs
decreasing_by omega

/-! ## Numerals -/

/-- The pieces of a JSON number. -/
structure Numeral where
  /-- Whether a minus stands in front. -/
  negative : Bool
  /-- The digits before the point. -/
  whole : List Char
  /-- The digits behind the point; none without a point. -/
  fraction : List Char
  /-- The exponent, if one is written. -/
  exponent : Option Int
  deriving DecidableEq, Repr

/-- Exponents of a larger magnitude are not computed with. -/
def exponentMax : Nat := UInt32.size / 2 - 1

/-- The value of a numeral; `none` if it is beyond the largest double. -/
def Numeral.value? (n : Numeral) : Option Json :=
  let (significand, wholeLeft) := takeWord 0 n.whole
  let word : Float := Number.ofRatio significand 1
  if n.fraction.isEmpty ∧ n.exponent.isNone ∧ wholeLeft.isEmpty then
    if n.negative then
      if significand = 0 ∨ UInt64.size / 2 < significand then some (.float (-word))
      else some (.int (-significand))
    else some (.int significand)
  else
    let (significand, fractionLeft) := takeWord significand n.fraction
    let word : Float := Number.ofRatio significand 1
    let places : Int := wholeLeft.length - ((n.fraction.length : Int) - fractionLeft.length)
    let exponent := n.exponent.getD 0
    let magnitude : Option Float :=
      if exponentMax < exponent.natAbs then
        if significand ≠ 0 ∧ 0 < exponent then none else some (Float.ofBits 0)
      else scaleFloat word (places + exponent)
    magnitude.map fun x => .float (if n.negative then -x else x)

end Brace.Json
