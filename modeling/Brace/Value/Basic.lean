/-
# Values

A value is what evaluation computes and what a host puts into an environment.  There is one kind of
number, the double.  An object is a finite map, so the order in which it was filled cannot be
seen.  A function of the host is known by its identity alone; what it does is up to the host.
-/
import Brace.Fields
import Brace.Pattern

namespace Brace

variable [Regex.Engine]

/-- A value. -/
inductive Value where
  /-- The absent value. -/
  | null
  /-- A truth value. -/
  | boolean (b : Bool)
  /-- A number. -/
  | number (x : Float)
  /-- A text. -/
  | string (s : String)
  /-- A list of values. -/
  | array (items : List Value)
  /-- Values under names. -/
  | object (fields : List (String × Value))
  /-- A regular expression. -/
  | pattern (p : Pattern)
  /-- The function of the host that has the given identity. -/
  | function (id : Nat)
  deriving Inhabited

namespace Value

/-! ## Kinds -/

/-- Whether a value is absent. -/
def isNull : Value → Bool
  | null => true
  | _ => false

/-- Whether a value counts as true in a condition.  What is absent, false, zero, not a number or
empty text does not; empty lists and objects do. -/
def isTruthy : Value → Bool
  | null => false
  | boolean b => b
  | number x => x != 0 && x == x
  | string s => !s.isEmpty
  | array _ | object _ | pattern _ | function _ => true

/-! ## Equality -/

mutual

/-- Whether two values are of the same kind and have the same contents.  Numbers are compared as
numbers, so the zeros are equal and a value that is not a number differs from itself;
patterns are compared by their sources, functions by their identities. -/
def same : Value → Value → Bool
  | null, null => true
  | boolean a, boolean b => a == b
  | number x, number y => x == y
  | string s, string t => s == t
  | array xs, array ys => sameItems xs ys
  | object xs, object ys => sameFields xs ys
  | pattern p, pattern q => p == q
  | function m, function n => m == n
  | _, _ => false

/-- Whether two lists hold the same values in the same order. -/
def sameItems : List Value → List Value → Bool
  | [], [] => true
  | x :: xs, y :: ys => same x y && sameItems xs ys
  | _, _ => false

/-- Whether two objects have the same values under the same names. -/
def sameFields : List (String × Value) → List (String × Value) → Bool
  | [], [] => true
  | (k, x) :: xs, (l, y) :: ys => k == l && same x y && sameFields xs ys
  | _, _ => false

end

end Value

end Brace
