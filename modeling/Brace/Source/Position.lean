/-
# Positions in a source text

A position counts lines from one and columns from zero: the column is the number of characters
already read on the current line.  The position reached after reading a list of characters is
`Position.after`; every position of this library is the position after some opening segment of
the source.
-/

namespace Brace

/-! ## Lines and columns -/

/-- A place in a source text. -/
structure Position where
  /-- The line, counted from one. -/
  line : Nat
  /-- The number of characters read on that line. -/
  column : Nat
  deriving DecidableEq, Repr, Inhabited

namespace Position

/-- The place before the first character. -/
def start : Position := ⟨1, 0⟩

/-- The place after one more character: a line feed opens the next line. -/
def advance (p : Position) (c : Char) : Position :=
  if c = '\n' then ⟨p.line + 1, 0⟩ else ⟨p.line, p.column + 1⟩

/-- The place after reading the characters `cs` from the place `p`. -/
def after (p : Position) (cs : List Char) : Position :=
  cs.foldl advance p

/-- The written form, line and column with a colon between. -/
def text (p : Position) : String :=
  toString p.line ++ ":" ++ toString p.column

/-! ## Reading piece by piece -/

@[simp]
theorem after_nil (p : Position) : p.after [] = p := rfl

@[simp]
theorem after_cons (p : Position) (c : Char) (cs : List Char) :
    p.after (c :: cs) = (p.advance c).after cs := rfl

/-- Reading two pieces one after the other is reading them joined. -/
theorem after_append (p : Position) (cs ds : List Char) :
    p.after (cs ++ ds) = (p.after cs).after ds :=
  List.foldl_append

end Position

end Brace
