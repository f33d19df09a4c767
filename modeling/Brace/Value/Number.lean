/-
# Values as numbers

Arithmetic and comparison take every value as a number.
-/
import Brace.Number.Numeral
import Brace.Value.Basic

namespace Brace.Value

variable [Regex.Engine]

/-- The number that a value counts as.  Only texts that spell a number do so; lists, objects,
patterns and functions are not numbers. -/
def toNumber : Value → Float
  | null => 0
  | boolean b => if b then 1 else 0
  | number x => x
  | string s => Number.ofSpelling s
  | array _ | object _ | pattern _ | function _ => Number.nan

end Brace.Value
