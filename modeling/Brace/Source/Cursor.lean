/-
# A cursor over a source text

A cursor holds the characters still to be read and the position of the first of them.  It moves
in one way only, `Cursor.forward`, so that the position always agrees with what has been read.
-/
import Brace.Source.Position

namespace Brace

/-- The unread characters of a source and the place where they begin. -/
structure Cursor where
  /-- The characters still to be read. -/
  rest : List Char
  /-- The place of the first of them. -/
  position : Position
  deriving DecidableEq, Repr, Inhabited

namespace Cursor

/-! ## Moving -/

/-- The cursor at the start of a source. -/
def ofString (source : String) : Cursor := ⟨source.toList, .start⟩

/-- Moves over the next `n` characters, or to the end if there are fewer. -/
def forward (k : Cursor) (n : Nat) : Cursor :=
  ⟨k.rest.drop n, k.position.after (k.rest.take n)⟩

/-- Moves to the end of the source. -/
def toEnd (k : Cursor) : Cursor := k.forward k.rest.length

/-- The next character, which stays unread. -/
def peek (k : Cursor) : Option Char := k.rest.head?

/-- Whether everything has been read. -/
def atEnd (k : Cursor) : Bool := k.rest.isEmpty

/-- Reads one character, if there is one. -/
def next (k : Cursor) : Option Char × Cursor := (k.peek, k.forward 1)

/-- Reads the longest run of characters that satisfy `p`. -/
def takeWhile (p : Char → Bool) (k : Cursor) : String × Cursor :=
  let run := k.rest.takeWhile p
  (String.ofList run, k.forward run.length)

/-- The run at the front that `p` accepts.  Besides a character, `p` is given the ones that it has
accepted before, the last one first. -/
def accepted (p : List Char → Char → Bool) (seen : List Char) : List Char → List Char
  | [] => []
  | c :: cs => if p seen c then c :: accepted p (c :: seen) cs else []

/-- Reads characters as long as `p` accepts them, which may change its mind on the way. -/
def readWhile (p : List Char → Char → Bool) (k : Cursor) : String × Cursor :=
  let run := accepted p [] k.rest
  (String.ofList run, k.forward run.length)

/-! ## What moving does -/

@[simp]
theorem forward_zero (k : Cursor) : k.forward 0 = k := by
  simp [forward]

@[simp]
theorem forward_rest (k : Cursor) (n : Nat) : (k.forward n).rest = k.rest.drop n := rfl

/-- Two moves add up. -/
theorem forward_forward (k : Cursor) (m n : Nat) :
    (k.forward m).forward n = k.forward (m + n) := by
  simp [forward, List.take_add, Position.after_append]

end Cursor

end Brace
