/-
# Operations on ranges

The operations on sets for sets of code points that are given by ascending closed ranges.  Ranges
that overlap or follow each other without a gap are joined to one, so that every set has one form.
-/
import Brace.Text.CharTable

namespace Brace.Text.Ranges

/-- Joins ranges, ascending by their first code points, that overlap or touch. -/
def join : List (Nat × Nat) → List (Nat × Nat)
  | [] => []
  | [r] => [r]
  | r :: s :: rest =>
    if s.1 ≤ r.2 + 1 then join ((r.1, max r.2 s.2) :: rest) else r :: join (s :: rest)
termination_by rs => rs.length

/-- The code points of some of the ranges, in any order. -/
def ofList (rs : List (Nat × Nat)) : List (Nat × Nat) := join (rs.mergeSort fun r s => r.1 ≤ s.1)

/-- The code points in either set. -/
def union (rs ss : List (Nat × Nat)) : List (Nat × Nat) := ofList (rs ++ ss)

/-- The largest code point. -/
def codeMax : Nat := 0x10FFFF

/-- The code points from `start` on that are in none of the ranges. -/
def gaps (start : Nat) : List (Nat × Nat) → List (Nat × Nat)
  | [] => if start ≤ codeMax then [(start, codeMax)] else []
  | r :: rest =>
    if start < r.1 then (start, r.1 - 1) :: gaps (r.2 + 1) rest else gaps (r.2 + 1) rest

/-- The code points outside a set. -/
def compl (rs : List (Nat × Nat)) : List (Nat × Nat) := gaps 0 rs

/-- The code points in both sets. -/
def inter (rs ss : List (Nat × Nat)) : List (Nat × Nat) := compl (union (compl rs) (compl ss))

/-- The code points in the first set and not in the second. -/
def diff (rs ss : List (Nat × Nat)) : List (Nat × Nat) := compl (union (compl rs) ss)

end Brace.Text.Ranges
