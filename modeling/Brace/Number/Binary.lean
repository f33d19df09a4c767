/-
# The binary form of a number

Numbers are IEEE doubles.  `parts` reads the sign, the whole-number mantissa and the exponent of
a double off its 64 bits, `ofRatio` is the way back: the double nearest to a quotient of two
natural numbers, a tie going to the even mantissa.  Everything is computed on natural numbers,
so that nothing depends on how a machine rounds.
-/

namespace Brace.Number

/-! ## Taking a double apart -/

/-- A double as its bits describe it; a finite one is `mantissa * 2 ^ exponent` with a sign. -/
inductive Parts where
  /-- Not a number. -/
  | nan
  /-- An infinity with its sign. -/
  | infinite (negative : Bool)
  /-- A finite number, zero included. -/
  | finite (negative : Bool) (mantissa : Nat) (exponent : Int)
  deriving DecidableEq, Repr

/-- Reads the sign, exponent and fraction fields of a double. -/
def parts (x : Float) : Parts :=
  let bits : Nat := x.toBits.toNat
  let negative := decide (Nat.pow 2 63 ≤ bits)
  let field : Nat := bits / Nat.pow 2 52 % Nat.pow 2 11
  let fraction : Nat := bits % Nat.pow 2 52
  if field = 2047 then
    if fraction = 0 then .infinite negative else .nan
  -- A subnormal number has no leading bit, and the exponent of the smallest normal ones.
  else if field = 0 then .finite negative fraction (-1074)
  else .finite negative (Nat.pow 2 52 + fraction) ((field : Int) - 1075)

/-- Whether a double is neither infinite nor not a number. -/
def isFinite (x : Float) : Bool :=
  match parts x with
  | .finite .. => true
  | _ => false

/-! ## Quotients scaled by a power of a base -/

/-- The quotient `num * base ^ exponent / den`, as numerator and denominator. -/
def scale (base num den : Nat) (exponent : Int) : Nat × Nat :=
  if 0 ≤ exponent then (num * base.pow exponent.toNat, den)
  else (num, den * base.pow (-exponent).toNat)

/-- The natural number nearest to a quotient, a tie going to the even one. -/
def roundQuotient (num den : Nat) : Nat :=
  let whole := num / den
  let twice := 2 * (num % den)
  if twice < den then whole
  else if den < twice then whole + 1
  else whole + whole % 2

/-! ## The nearest double -/

/-- The exponent of the last mantissa bit of the double nearest to `num / den`: the largest one
that leaves 53 bits, and never below that of the smallest double. -/
def unitExponent (num den : Nat) : Int :=
  let estimate : Int := (num.log2 : Int) - den.log2 - 53
  let (n, d) := scale 2 num den (-estimate)
  -- The lengths of the two numbers give the exponent up to one.
  max (if n / d < Nat.pow 2 53 then estimate else estimate + 1) (-1074)

/-- The bits of the double that is nearest to `num / den`.  A mantissa of 53 bits and the exponent
field lie side by side, so a carry out of the mantissa lands in the field. -/
def nearestBits (num den : Nat) : Nat :=
  let unit := unitExponent num den
  let (n, d) := scale 2 num den (-unit)
  min ((unit + 1074).toNat * Nat.pow 2 52 + roundQuotient n d) (2047 * Nat.pow 2 52)

/-- The double nearest to `num / den`, for a positive `den`: a tie goes to the even mantissa, and
what lies beyond the largest double is infinite. -/
def ofRatio (num den : Nat) : Float :=
  if num = 0 then Float.ofBits 0 else Float.ofBits (UInt64.ofNat (nearestBits num den))

/-- The double with the given sign and magnitude. -/
def signed (negative : Bool) (magnitude : Float) : Float :=
  if negative then -magnitude else magnitude

/-- Positive infinity. -/
def infinity : Float := Float.ofBits 0x7FF0000000000000

/-- The value that is not a number. -/
def nan : Float := Float.ofBits 0x7FF8000000000000

/-- The double nearest to a natural number. -/
def ofNat (n : Nat) : Float := ofRatio n 1

/-- The double nearest to a whole number. -/
def ofInt (n : Int) : Float := signed (n < 0) (ofNat n.natAbs)

/-! ## Whole numbers among the doubles -/

/-- The natural number that a double is equal to, if there is one; both zeros count. -/
def toNat? (x : Float) : Option Nat :=
  match parts x with
  | .finite negative mantissa exponent =>
    let (n, d) := scale 2 mantissa 1 exponent
    if (negative = false ∨ mantissa = 0) ∧ n % d = 0 then some (n / d) else none
  | _ => none

/-! ## The remainder of a division -/

/-- The exact remainder of `a` by `b`, with the sign of `a`: what is left of `a` after taking away
`b` as often as it goes into `a` completely. -/
def remainder (a b : Float) : Float :=
  match parts a, parts b with
  | .nan, _ | _, .nan | .infinite _, _ => nan
  | .finite .., .infinite _ => a
  | .finite negative m p, .finite _ n q =>
    if n = 0 then nan
    else
      let unit := min p q
      -- Both numbers are whole multiples of the smaller unit, so the remainder is exact.
      let left := (m * Nat.pow 2 (p - unit).toNat) % (n * Nat.pow 2 (q - unit).toNat)
      let (num, den) := scale 2 left 1 unit
      signed negative (ofRatio num den)

end Brace.Number
