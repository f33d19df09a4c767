/-
# JSON values

The values of JSON.  A number written without fraction and exponent is a whole number and stays
one; every other number is a double.  The members of an object are sorted by name.
-/
import Brace.Fields

namespace Brace

/-- A JSON value. -/
inductive Json where
  /-- The value `null`. -/
  | null
  /-- A truth value. -/
  | bool (b : Bool)
  /-- A number written as a whole number. -/
  | int (n : Int)
  /-- Any other number. -/
  | float (x : Float)
  /-- A text. -/
  | string (s : String)
  /-- A list of values. -/
  | array (items : List Json)
  /-- Values under names. -/
  | object (fields : List (String × Json))
  deriving Inhabited, Repr

namespace Json

/-- The value of a member, if the value is an object that has it. -/
def member? (name : String) : Json → Option Json
  | object fields => Fields.lookup? name fields
  | _ => none

/-- The object with the given members. -/
def ofMembers (members : List (String × Json)) : Json := object (Fields.ofList members)

mutual

/-- Whether two values are the same.  Whole numbers differ from doubles, and doubles are compared as
numbers, so that the zeros are equal. -/
def same : Json → Json → Bool
  | null, null => true
  | bool a, bool b => a == b
  | int m, int n => m == n
  | float x, float y => x == y
  | string s, string t => s == t
  | array xs, array ys => sameItems xs ys
  | object xs, object ys => sameFields xs ys
  | _, _ => false

/-- Whether two lists hold the same values in the same order. -/
def sameItems : List Json → List Json → Bool
  | [], [] => true
  | x :: xs, y :: ys => same x y && sameItems xs ys
  | _, _ => false

/-- Whether two objects have the same members. -/
def sameFields : List (String × Json) → List (String × Json) → Bool
  | [], [] => true
  | (k, x) :: xs, (l, y) :: ys => k == l && same x y && sameFields xs ys
  | _, _ => false

end

end Json

end Brace
