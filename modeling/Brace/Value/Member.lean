/-
# Members of values

A member of an object is found under the display text of its key.  Lists and texts have members
by position, counted from zero, and their `length`.  Whatever is not there is `null`.
-/
import Brace.Number.Literal
import Brace.Value.Text

namespace Brace.Value

variable [Regex.Engine]

/-- The largest position, that of 64 bits. -/
def maxPosition : Nat := UInt64.size - 1

/-- The position that a number is.  The bound is a double itself, the one nearest to the largest
position, which is greater by one and counts as the largest position. -/
def positionOf? (x : Float) : Option Nat :=
  (Number.toNat? x).bind fun n => if n ≤ maxPosition + 1 then some (min n maxPosition) else none

/-- The position that a value names: a natural number, or a text that is one. -/
def position? : Value → Option Nat
  | number x => positionOf? x
  | string s => Number.ofText? s >>= positionOf?
  | _ => none

/-- The key under which the length is found. -/
def lengthKey : String := "length"

/-- Whether a value is the key of the length. -/
def isLengthKey : Value → Bool
  | string s => s == lengthKey
  | _ => false

/-- A length as a value. -/
def ofLength (n : Nat) : Value := number (Number.ofNat n)

/-- The member of a value under a key. -/
def getMember : Value → Value → Value
  | object fields, key => (Fields.lookup? key.display fields).getD null
  | array items, key =>
    if key.isLengthKey then ofLength items.length
    else (key.position? >>= fun n => items[n]?).getD null
  | string s, key =>
    if key.isLengthKey then ofLength s.length
    else (key.position? >>= fun n => s.toList[n]?).elim null fun c => string c.toString
  | _, _ => null

end Brace.Value
