/-
# Digits in other bases

The bases in which whole numbers can be spelled besides ten, the letters that mark them, and the
values of their digits.
-/

namespace Brace.Number

/-- The bases that have a mark. -/
inductive Radix where
  /-- Base 2, marked `0b`. -/
  | binary
  /-- Base 8, marked `0o`. -/
  | octal
  /-- Base 16, marked `0x`. -/
  | hexadecimal
  deriving DecidableEq, Repr

/-- The value of a decimal digit, or of a letter that is a digit beyond nine. -/
def digitValue? (c : Char) : Option Nat :=
  if c.isDigit then some (c.toNat - '0'.toNat)
  else if 'a' ≤ c ∧ c ≤ 'z' then some (c.toNat - 'a'.toNat + 10)
  else if 'A' ≤ c ∧ c ≤ 'Z' then some (c.toNat - 'A'.toNat + 10)
  else none

namespace Radix

/-- The base as a number. -/
def base : Radix → Nat
  | binary => 2
  | octal => 8
  | hexadecimal => 16

/-- The base that a letter behind a zero marks. -/
def ofMark? (c : Char) : Option Radix :=
  if c = 'x' ∨ c = 'X' then some hexadecimal
  else if c = 'o' ∨ c = 'O' then some octal
  else if c = 'b' ∨ c = 'B' then some binary
  else none

/-- The value of a digit of a base. -/
def digit? (r : Radix) (c : Char) : Option Nat := (digitValue? c).filter (· < r.base)

/-- A digit is less than its base. -/
theorem digit?_lt {r : Radix} {c : Char} {n : Nat} (h : r.digit? c = some n) : n < r.base := by
  simpa using (Option.filter_eq_some_iff.mp h).2

/-- The whole number that digits spell; `none` if one of them is no digit of the base. -/
def natOf? (r : Radix) (digits : List Char) : Option Nat :=
  digits.foldlM (fun n c => (r.digit? c).map (r.base * n + ·)) 0

end Radix

end Brace.Number
