/-
# Values and JSON

JSON has no infinite numbers and no functions, which become `null`, and no regular expressions,
which become their text.  Reading keeps everything, except that a whole number becomes the
nearest double.
-/
import Brace.Json.Basic
import Brace.Number.Binary
import Brace.Value.Basic

namespace Brace.Value

variable [Regex.Engine]

mutual

/-- The JSON form of a value. -/
def toJson : Value → Json
  | null => .null
  | boolean b => .bool b
  | number x => if Number.isFinite x then .float x else .null
  | string s => .string s
  | array items => .array (itemsToJson items)
  | object fields => .object (fieldsToJson fields)
  | pattern p => .string p.text
  | function _ => .null

/-- The JSON forms of the items of a list. -/
def itemsToJson : List Value → List Json
  | [] => []
  | item :: rest => toJson item :: itemsToJson rest

/-- The JSON forms of the members of an object. -/
def fieldsToJson : List (String × Value) → List (String × Json)
  | [] => []
  | (name, a) :: rest => (name, toJson a) :: fieldsToJson rest

end

mutual

/-- The value that a JSON value stands for. -/
def ofJson : Json → Value
  | .null => null
  | .bool b => boolean b
  | .int n => number (Number.ofInt n)
  | .float x => number x
  | .string s => string s
  | .array items => array (itemsOfJson items)
  | .object fields => object (fieldsOfJson fields)

/-- The values that the items of a list stand for. -/
def itemsOfJson : List Json → List Value
  | [] => []
  | item :: rest => ofJson item :: itemsOfJson rest

/-- The values that the members of an object stand for. -/
def fieldsOfJson : List (String × Json) → List (String × Value)
  | [] => []
  | (name, j) :: rest => (name, ofJson j) :: fieldsOfJson rest

end

end Brace.Value
