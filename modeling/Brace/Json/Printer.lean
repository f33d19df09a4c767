/-
# Writing JSON

A value is written on one line without blanks, or over several lines with two blanks for every
level.  A double always shows a fraction or an exponent, so that it reads back as a double.
-/
import Brace.Json.Basic
import Brace.Number.Decimal
import Brace.Text.Quoted

namespace Brace.Json

/-! ## Texts -/

/-- How one character is written in a string. -/
def escapeChar (c : Char) : List Char :=
  if c = '"' ∨ c = '\\' then ['\\', c]
  else if c = '\n' then ['\\', 'n']
  else if c = '\r' then ['\\', 'r']
  else if c = '\t' then ['\\', 't']
  else if c.toNat = 8 then ['\\', 'b']
  else if c.toNat = 12 then ['\\', 'f']
  else if c.toNat < 32 then
    '\\' :: 'u' :: '0' :: '0' :: (if c.toNat < 16 then ['0'] else []) ++ Text.hexDigits c.toNat
  else [c]

/-- A text in double quotes. -/
def printString (s : String) : String :=
  String.ofList ('"' :: (s.toList.flatMap escapeChar ++ ['"']))

/-! ## Numbers -/

/-- The layout of a decimal: positional while the point falls within sixteen digits or at most five
zeros behind the point, with a mark `e` and the exponent beyond. -/
def printDecimal (d : Number.Decimal) : List Char :=
  let digits := Nat.toDigits 10 d.digits
  let point : Int := digits.length + d.exponent
  if 0 ≤ d.exponent ∧ point ≤ 16 then d.positional ++ ['.', '0']
  else if -5 < point ∧ point ≤ 16 then d.positional
  else
    let mark := 'e' :: (toString (point - 1)).toList
    match digits with
    | [] => mark
    | [first] => first :: mark
    | first :: more => first :: '.' :: (more ++ mark)

/-- The shortest text of a double, a tie going to the even digit; what is not finite is `null`. -/
def printFloat (x : Float) : String :=
  match Number.parts x with
  | .finite negative mantissa exponent =>
    let magnitude :=
      if mantissa = 0 then ['0', '.', '0']
      else printDecimal (Number.Decimal.shortest .even mantissa exponent)
    String.ofList (if negative then '-' :: magnitude else magnitude)
  | _ => "null"

/-! ## Values -/

mutual

/-- The text of a value on one line. -/
def compact : Json → String
  | null => "null"
  | bool b => if b then "true" else "false"
  | int n => toString n
  | float x => printFloat x
  | string s => printString s
  | array items => "[" ++ String.intercalate "," (compactItems items) ++ "]"
  | object fields => "\x7b" ++ String.intercalate "," (compactFields fields) ++ "\x7d"

/-- The texts of the items of a list. -/
def compactItems : List Json → List String
  | [] => []
  | item :: rest => compact item :: compactItems rest

/-- The texts of the members of an object. -/
def compactFields : List (String × Json) → List String
  | [] => []
  | (name, value) :: rest => (printString name ++ ":" ++ compact value) :: compactFields rest

end

/-- Entries between brackets, each on a line of its own, the closing bracket `depth` levels deep. -/
def bracketed (left right : String) (depth : Nat) (entries : List String) : String :=
  if entries.isEmpty then left ++ right
  else
    let indent (n : Nat) : String := String.ofList (List.replicate (2 * n) ' ')
    let lines := entries.map fun entry => "\n" ++ indent (depth + 1) ++ entry
    left ++ String.intercalate "," lines ++ "\n" ++ indent depth ++ right

mutual

/-- The text of a value over several lines, inside `depth` levels. -/
def prettyAt (depth : Nat) : Json → String
  | array items => bracketed "[" "]" depth (prettyItems (depth + 1) items)
  | object fields => bracketed "\x7b" "\x7d" depth (prettyFields (depth + 1) fields)
  | scalar => compact scalar

/-- The texts of the items of a list. -/
def prettyItems (depth : Nat) : List Json → List String
  | [] => []
  | item :: rest => prettyAt depth item :: prettyItems depth rest

/-- The texts of the members of an object. -/
def prettyFields (depth : Nat) : List (String × Json) → List String
  | [] => []
  | (name, value) :: rest =>
    (printString name ++ ": " ++ prettyAt depth value) :: prettyFields depth rest

end

/-- The text of a value over several lines. -/
def pretty (j : Json) : String := prettyAt 0 j

end Brace.Json
