/-
# Classes of characters

A class is built from ranges and from the named classes by the operations on sets.  Whether a
character belongs to it is decided by following the way it was built, and so are the ranges that it
holds.
-/
import Brace.Text.CaseFolding
import Brace.Text.DecimalDigit
import Brace.Text.WhiteSpace
import Brace.Text.WordChar

namespace Brace.Regex

/-- The named classes. -/
inductive NamedClass where
  /-- Decimal digits of every script. -/
  | digit
  /-- White space. -/
  | space
  /-- The characters of words. -/
  | word
  deriving DecidableEq, Hashable, Repr

/-- The table of a named class. -/
def NamedClass.table : NamedClass → Text.CharTable
  | digit => Text.decimalDigits
  | space => Text.whiteSpace
  | word => Text.wordChars

/-- Whether a character belongs to a named class. -/
def NamedClass.contains (k : NamedClass) (c : Char) : Bool := k.table.contains c

/-- A set of characters. -/
inductive CharClass where
  /-- No character. -/
  | none
  /-- All characters from the first to the last one. -/
  | range (first last : Char)
  /-- A named class. -/
  | named (k : NamedClass)
  /-- The characters of either class. -/
  | union (a b : CharClass)
  /-- The characters of both classes. -/
  | inter (a b : CharClass)
  /-- The characters of the first class that are not in the second. -/
  | diff (a b : CharClass)
  /-- All other characters. -/
  | compl (a : CharClass)
  /-- The characters that differ from one of the class in case at most. -/
  | fold (a : CharClass)
  deriving DecidableEq, Hashable, Repr

namespace CharClass

/-- Whether a character belongs to a class. -/
def contains : CharClass → Char → Bool
  | none, _ => false
  | range first last, c => first ≤ c && c ≤ last
  | named k, c => k.contains c
  | union a b, c => a.contains c || b.contains c
  | inter a b, c => a.contains c && b.contains c
  | diff a b, c => a.contains c && !b.contains c
  | compl a, c => !a.contains c
  | fold a, c => (Text.caseOrbit c).any fun d => a.contains d

/-- The code points of a class as ascending ranges, none of which overlaps or touches another. -/
def ranges : CharClass → List (Nat × Nat)
  | none => []
  | range first last => if first ≤ last then [(first.toNat, last.toNat)] else []
  | named k => Text.Ranges.ofList k.table.ranges
  | union a b => Text.Ranges.union a.ranges b.ranges
  | inter a b => Text.Ranges.inter a.ranges b.ranges
  | diff a b => Text.Ranges.diff a.ranges b.ranges
  | compl a => Text.Ranges.compl a.ranges
  | fold a => Text.foldRanges a.ranges

/-- The class of one character. -/
def single (c : Char) : CharClass := range c c

/-- The class of all characters. -/
def all : CharClass := compl none

/-- The union of classes. -/
def unions (as : List CharClass) : CharClass :=
  as.foldr union none

/-- A class or all other characters. -/
def negate (negated : Bool) (a : CharClass) : CharClass := if negated then compl a else a

/-- A class, up to case if asked for. -/
def foldIf (insensitive : Bool) (a : CharClass) : CharClass := if insensitive then fold a else a

@[simp]
theorem contains_single (c d : Char) : (single c).contains d = decide (d = c) := by
  rw [Bool.eq_iff_iff]
  simp only [single, contains, Bool.and_eq_true, decide_eq_true_eq]
  constructor
  · rintro ⟨h, g⟩
    exact Char.le_antisymm g h
  · rintro rfl
    exact ⟨Char.le_refl _, Char.le_refl _⟩

@[simp]
theorem contains_all (c : Char) : all.contains c = true := rfl

end CharClass

/-! ## Classes of ASCII characters -/

/-- The classes of ASCII characters that are named inside brackets. -/
def asciiClass? : String → Option CharClass
  | "alnum" => some (.unions [.range '0' '9', .range 'A' 'Z', .range 'a' 'z'])
  | "alpha" => some (.unions [.range 'A' 'Z', .range 'a' 'z'])
  | "ascii" => some (.range (Char.ofNat 0) (Char.ofNat 0x7F))
  | "blank" => some (.unions [.single '\t', .single ' '])
  | "cntrl" =>
    some (.unions [.range (Char.ofNat 0) (Char.ofNat 0x1F), .single (Char.ofNat 0x7F)])
  | "digit" => some (.range '0' '9')
  | "graph" => some (.range '!' '~')
  | "lower" => some (.range 'a' 'z')
  | "print" => some (.range ' ' '~')
  | "punct" =>
    some (.unions [.range '!' '/', .range ':' '@', .range '[' '\x60', .range '\x7b' '~'])
  | "space" => some (.unions [.range '\t' '\r', .single ' '])
  | "upper" => some (.range 'A' 'Z')
  | "word" =>
    some (.unions [.range '0' '9', .range 'A' 'Z', .single '_', .range 'a' 'z'])
  | "xdigit" => some (.unions [.range '0' '9', .range 'A' 'F', .range 'a' 'f'])
  | _ => none

end Brace.Regex
