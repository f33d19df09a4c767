/-
# The text of a value

Two conversions give the text of a value.  The display text is used for joining, for searching and
as the key of an object; every value has one.  The interpolated text stands in a template, where
only texts and finite numbers show.
-/
import Brace.Number.Decimal
import Brace.Value.Basic

namespace Brace.Value

variable [Regex.Engine]

mutual

/-- The display text of a value. -/
def display : Value → String
  | null => "null"
  | boolean b => if b then "true" else "false"
  | number x => Number.display x
  | string s => s
  | array items => String.intercalate "," (displayItems items)
  | object _ => "[object Object]"
  | pattern p => p.text
  | function _ => "function"

/-- The display texts of the items of a list; an absent item shows as the empty text. -/
def displayItems : List Value → List String
  | [] => []
  | item :: rest => (if item.isNull then "" else display item) :: displayItems rest

end

/-- The text that a value leaves in a template. -/
def interpolated : Value → String
  | string s => s
  | number x => if Number.isFinite x then Number.display x else ""
  | _ => ""

end Brace.Value
