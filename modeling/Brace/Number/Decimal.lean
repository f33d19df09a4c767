/-
# Decimal texts of numbers

A decimal is a natural number of digits and a power of ten.  This module rounds a decimal to the
nearest double, finds the shortest decimal that reads back as a given double, and writes decimals
without an exponent.
-/
import Brace.Number.Binary

namespace Brace.Number

/-! ## Decimals -/

/-- The number `digits * 10 ^ exponent`. -/
structure Decimal where
  /-- All digits as one number. -/
  digits : Nat
  /-- The power of ten that the last digit counts. -/
  exponent : Int
  deriving DecidableEq, Repr

/-- The number of decimal digits of a natural number, one for zero. -/
def digitCount (n : Nat) : Nat := (Nat.toDigits 10 n).length

namespace Decimal

/-- The double nearest to a decimal.  Whatever is at least `10 ^ 310` is infinite and whatever is
below `10 ^ (-330)` is zero, so no larger power of ten is ever computed. -/
def toFloat (d : Decimal) : Float :=
  let top := (digitCount d.digits : Int) + d.exponent
  -- Outside of these bounds the answer is known, and the powers of ten below stay small.
  if d.digits = 0 ∨ top < -330 then Float.ofBits 0
  else if 310 < top then infinity
  else
    let (num, den) := scale 10 d.digits 1 d.exponent
    ofRatio num den

/-- Removes the zeros at the end of the digits. -/
def trim (d : Decimal) : Decimal :=
  if h : 0 < d.digits ∧ d.digits % 10 = 0 then trim ⟨d.digits / 10, d.exponent + 1⟩ else d
termination_by d.digits
decreasing_by omega

/-! ## The shortest decimal -/

/-- Which of two equally near decimals is taken. -/
inductive Tie where
  /-- The larger one. -/
  | up
  /-- The one with an even last digit. -/
  | even
  deriving DecidableEq, Repr

/-- The decimal with every digit of `mantissa * 2 ^ exponent`. -/
def exact (mantissa : Nat) (exponent : Int) : Decimal :=
  if 0 ≤ exponent then ⟨mantissa * Nat.pow 2 exponent.toNat, 0⟩
  else ⟨mantissa * Nat.pow 5 (-exponent).toNat, exponent⟩

/-- Of the two decimals on the grid of `10 ^ exponent` that enclose `num / den`, the nearest of
those that read back as `x`. -/
def onGrid? (tie : Tie) (x : Float) (num den : Nat) (exponent : Int) : Option Decimal :=
  let (n, d) := scale 10 num den (-exponent)
  let low : Decimal := ⟨n / d, exponent⟩
  let high : Decimal := ⟨n / d + 1, exponent⟩
  let twice := 2 * (n % d)
  match decide (low.toFloat = x), decide (high.toFloat = x) with
  | false, false => none
  | true, false => some low
  | false, true => some high
  -- Both read back, so the distance to the number decides.
  | true, true =>
    if twice < d then some low
    else if d < twice then some high
    else if tie = .even ∧ low.digits % 2 = 0 then some low
    else some high

/-- The decimal with the fewest digits that reads back as the positive finite double
`mantissa * 2 ^ exponent`, and the nearest of those.  Seventeen digits always suffice; the exact
decimal stands behind them. -/
def shortest (tie : Tie) (mantissa : Nat) (exponent : Int) : Decimal :=
  let (num, den) := scale 2 mantissa 1 exponent
  let x := ofRatio num den
  let e := exact mantissa exponent
  let top := (digitCount e.digits : Int) + e.exponent
  -- The grids are tried from the coarsest one on, and the first hit has the fewest digits.
  let found := (List.range 17).findSome? fun n => onGrid? tie x num den (top - (n + 1 : Nat))
  (found.getD e).trim

/-! ## Writing -/

/-- The digits with the decimal point in its place, zeros filling up to the point. -/
def positional (d : Decimal) : List Char :=
  let digits := Nat.toDigits 10 d.digits
  if 0 ≤ d.exponent then digits ++ List.replicate d.exponent.toNat '0'
  else
    let places := (-d.exponent).toNat
    if places < digits.length then
      digits.take (digits.length - places) ++ '.' :: digits.drop (digits.length - places)
    -- The point stands in front of all digits.
    else '0' :: '.' :: (List.replicate (places - digits.length) '0' ++ digits)

end Decimal

/-! ## The text of a number in a source -/

/-- The text of a number: its shortest decimal without an exponent, a tie going up.  Zero keeps its
sign. -/
def text (x : Float) : String :=
  match parts x with
  | .nan => "NaN"
  | .infinite negative => if negative then "-inf" else "inf"
  | .finite negative mantissa exponent =>
    let magnitude :=
      if mantissa = 0 then ['0'] else (Decimal.shortest .up mantissa exponent).positional
    String.ofList (if negative then '-' :: magnitude else magnitude)

/-- The text of a number as a result: `Infinity` in full, and zero without a sign. -/
def display (x : Float) : String :=
  match parts x with
  | .nan => "NaN"
  | .infinite negative => if negative then "-Infinity" else "Infinity"
  | .finite _ mantissa _ => if mantissa = 0 then "0" else text x

end Brace.Number
