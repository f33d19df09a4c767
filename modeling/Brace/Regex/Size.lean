/-
# The size of an automaton

A pattern of a few characters can stand for an expression that is very long when its repetitions
are written out.  To tell such patterns before anything is matched, this module computes the number
of bytes that nondeterministic automata for an expression take: one that reads the UTF-8 form of a
text forwards and notes the ends of groups, and one that reads it backwards and does not.  Nothing
is built for that, as the size of a repetition is a multiple of the size of what is repeated.
-/
import Brace.Regex.Basic
import Brace.Text.Utf8

namespace Brace.Regex

/-! ## Parts of an automaton -/

/-- The direction in which an automaton reads. -/
inductive Direction where
  /-- From the start to the end. -/
  | forwards
  /-- From the end to the start. -/
  | backwards
  deriving DecidableEq, Repr

/-- The bytes of a state. -/
def stateSize : Nat := 32

/-- The bytes of an edge that reads a byte and leaves a state with several such edges. -/
def edgeSize : Nat := 8

/-- The bytes of an edge that reads nothing and leaves a state with several such edges. -/
def jumpSize : Nat := 4

/-! ## Classes -/

/-- The size of what reads one character of a class.  A single character takes a state for each of
its bytes, and several ASCII characters take a state with an edge for each range and a state behind
it.  The other classes are read part by part; parts that begin alike share their beginnings. -/
def CharClass.size (d : Direction) (a : CharClass) : Nat :=
  let ranges := a.ranges
  let parts := ranges.flatMap Text.Utf8.ofRange
  let places := Text.Utf8.places [] parts
  if ranges.length = 1 ∧ ranges.all fun r => r.1 = r.2 then places * stateSize
  else if ranges.all fun r => r.2 < 0x80 then 2 * stateSize + ranges.length * edgeSize
  else
    match d with
    | .forwards => (places - parts.length + 2) * stateSize + places * edgeSize
    | .backwards => (places + 2) * stateSize + parts.length * jumpSize

/-! ## Expressions -/

/-- Whether an expression matches nothing but the empty text. -/
def isBlank : Regex → Bool
  | empty | assertion _ => true
  | char _ => false
  | seq r s | alt r s => r.isBlank && s.isBlank
  | repeated r _ max => max == some 0 || r.isBlank
  | captured r => r.isBlank

/-- Whether an expression matches the empty text where all its assertions hold. -/
def isSkippable : Regex → Bool
  | empty | assertion _ => true
  | char _ => false
  | seq r s => r.isSkippable && s.isSkippable
  | alt r s => r.isSkippable || s.isSkippable
  | repeated r min _ => min == 0 || r.isSkippable
  | captured r => r.isSkippable

/-- The size of a part that is written `n` times, one behind the other. -/
def copiesSize (n size : Nat) : Nat := if n = 0 then stateSize else n * size

/-- The size of a repetition of a part.  The turns that must be taken are written one behind the
other.  Without an upper bound the last of them can be taken again, and otherwise a way out stands
in front of each turn that need not be taken. -/
def repeatedSize (size : Nat) (skippable : Bool) : Nat → Option Nat → Nat
  | 0, some 1 => size + 2 * stateSize + 2 * jumpSize
  | min, some max =>
    if min = max then copiesSize min size
    else
      copiesSize min size + stateSize + (max - min) * (size + stateSize + 2 * jumpSize)
  | 0, none =>
    if skippable then size + 3 * stateSize + 4 * jumpSize else size + stateSize + 2 * jumpSize
  | min, none => min * size + stateSize + 2 * jumpSize

/-- What a branch of the given size adds to an alternation.  A branch that is an alternation itself
hands over its branches. -/
def branchSize : Regex → Nat → Nat
  | alt _ _, size => size - 2 * stateSize
  | _, size => size + jumpSize

/-- The size of what reads an expression.  One that matches nothing but the empty text is not
repeated more than once. -/
def size (d : Direction) : Regex → Nat
  | empty | assertion _ => stateSize
  | char a => a.size d
  | seq r s => r.size d + s.size d
  | alt r s => 2 * stateSize + branchSize r (r.size d) + branchSize s (s.size d)
  | repeated r min max =>
    if r.isBlank then repeatedSize (r.size d) true (Nat.min min 1) (some (Nat.min (max.getD 1) 1))
    else repeatedSize (r.size d) r.isSkippable min max
  | captured r =>
    match d with
    | .forwards => r.size d + 2 * stateSize
    | .backwards => r.size d

/-- The size of an automaton that searches a text for an expression: it skips any bytes, reads the
expression as a group of its own, and ends. -/
def searchSize (d : Direction) (r : Regex) : Nat :=
  let skip := repeatedSize (2 * stateSize + edgeSize) false 0 none
  skip + size d (captured r) + stateSize

/-- The largest size of an automaton. -/
def sizeMax : Nat := 10 * 1024 * 1024

/-- Whether one of the automata for an expression exceeds the largest size. -/
def isTooLarge (r : Regex) : Bool :=
  decide (sizeMax < r.searchSize .forwards) || decide (sizeMax < r.searchSize .backwards)

end Brace.Regex
