/-
# Regular expressions

A regular expression is matched by taking derivatives: the derivatives of an expression by a
character are what remains to be matched once the character has been read.  A list of expressions,
without repetitions, stands for all ways in which a match may go on, so one step is taken for
every character of the text and nothing is tried twice.

Assertions look at the two characters around a place, and therefore so do `nullable` and
`derivatives`.
-/
import Brace.Regex.CharClass
import Std.Data.HashSet

namespace Brace

/-! ## Places in a text -/

namespace Regex

/-- Whether a neighbour exists and is a character of words. -/
def isWord : Option Char → Bool
  | some c => Text.isWordChar c
  | none => false

/-- A condition on a place in a text. -/
inductive Assertion where
  /-- The start of the text. -/
  | textStart
  /-- The end of the text. -/
  | textEnd
  /-- The start of a line. -/
  | lineStart
  /-- The end of a line. -/
  | lineEnd
  /-- A word begins or ends. -/
  | wordBoundary
  /-- No word begins or ends. -/
  | notWordBoundary
  /-- A word begins. -/
  | wordStart
  /-- A word ends. -/
  | wordEnd
  /-- No word goes on in front. -/
  | wordStartHalf
  /-- No word goes on behind. -/
  | wordEndHalf
  deriving DecidableEq, Hashable, Repr

/-- Whether an assertion holds between two neighbours; `none` is the end of the text. -/
def Assertion.holds (before after : Option Char) : Assertion → Bool
  | textStart => before.isNone
  | textEnd => after.isNone
  | lineStart => before.isNone || before == some '\n'
  | lineEnd => after.isNone || after == some '\n'
  | wordBoundary => isWord before != isWord after
  | notWordBoundary => isWord before == isWord after
  | wordStart => !isWord before && isWord after
  | wordEnd => isWord before && !isWord after
  | wordStartHalf => !isWord before
  | wordEndHalf => !isWord after

end Regex

/-! ## Expressions -/

/-- A regular expression. -/
inductive Regex where
  /-- The empty text. -/
  | empty
  /-- One character of a class. -/
  | char (a : Regex.CharClass)
  /-- The empty text at a place where the assertion holds. -/
  | assertion (a : Regex.Assertion)
  /-- One expression behind the other. -/
  | seq (r s : Regex)
  /-- Either expression. -/
  | alt (r s : Regex)
  /-- At least `min` times the expression, and at most `max` times if that is given. -/
  | repeated (r : Regex) (min : Nat) (max : Option Nat)
  /-- The expression as a group whose match can be asked for. -/
  | captured (r : Regex)
  deriving DecidableEq, Hashable, Repr

namespace Regex

/-! ## Derivatives -/

/-- Whether the empty text matches between two neighbours. -/
def nullable (before after : Option Char) : Regex → Bool
  | empty => true
  | char _ => false
  | assertion a => a.holds before after
  | seq r s => r.nullable before after && s.nullable before after
  | alt r s => r.nullable before after || s.nullable before after
  | repeated r min _ => min == 0 || r.nullable before after
  | captured r => r.nullable before after

/-- One expression behind the other; nothing is put in front for the empty text. -/
def andThen : Regex → Regex → Regex
  | empty, s => s
  | r, s => seq r s

/-- What remains to be matched after the character `c`, where `before` stands in front of it.  A
repetition whose expression matches the empty text here may use up any number of its turns on
the empty text, so no lower bound remains. -/
def derivatives (before : Option Char) (c : Char) : Regex → List Regex
  | empty | assertion _ => []
  | char a => if a.contains c then [empty] else []
  | seq r s =>
    (r.derivatives before c).map (·.andThen s) ++
      if r.nullable before (some c) then s.derivatives before c else []
  | alt r s => r.derivatives before c ++ s.derivatives before c
  | repeated r min max =>
    if max = some 0 then []
    else
      let min := if r.nullable before (some c) then 0 else min - 1
      (r.derivatives before c).map (·.andThen (repeated r min (max.map (· - 1))))
  | captured r => r.derivatives before c

/-! ## Repetitions in a list -/

/-- The expressions of a list, except those in `seen` and those that stand further in front. -/
def distinctFrom (seen : Std.HashSet Regex) : List Regex → List Regex
  | [] => []
  | r :: rs =>
    if seen.contains r then distinctFrom seen rs else r :: distinctFrom (seen.insert r) rs

/-- The expressions of a list without repetitions, in the order in which they first occur. -/
def distinct (rs : List Regex) : List Regex := distinctFrom ∅ rs

theorem mem_distinctFrom {r : Regex} {seen : Std.HashSet Regex} {rs : List Regex} :
    r ∈ distinctFrom seen rs ↔ r ∈ rs ∧ seen.contains r = false := by
  induction rs generalizing seen with
  | nil => simp [distinctFrom]
  | cons s rs ih =>
    unfold distinctFrom
    by_cases hs : seen.contains s = true
    · rw [if_pos hs, ih, List.mem_cons]
      constructor
      · exact fun h => ⟨Or.inr h.1, h.2⟩
      · rintro ⟨rfl | h, hr⟩
        · simp [hs] at hr
        · exact ⟨h, hr⟩
    · rw [if_neg hs, List.mem_cons, ih, List.mem_cons, Std.HashSet.contains_insert]
      by_cases hr : r = s
      · subst hr
        simpa using hs
      · simp [hr, Ne.symm hr]

/-- Taking repetitions away loses no expression. -/
@[simp]
theorem mem_distinct {r : Regex} {rs : List Regex} : r ∈ distinct rs ↔ r ∈ rs := by
  simp [distinct, mem_distinctFrom]

/-! ## Searching -/

/-- Searches a text for a match of `r` that begins here or later, or for an end of one of the
matches under way, whose remainders are `states`; `before` stands in front of the text. -/
def search (r : Regex) (states : List Regex) (before : Option Char) : List Char → Bool
  | [] => (r :: states).any (·.nullable before none)
  | c :: cs =>
    (r :: states).any (·.nullable before (some c)) ||
      r.search (distinct ((r :: states).flatMap (·.derivatives before c))) (some c) cs

/-- Whether some part of a text matches. -/
def isMatch (r : Regex) (text : String) : Bool := r.search [] none text.toList

/-! ## Combinations -/

/-- A list of expressions combined by `f`, from the right; no expression is the empty text. -/
def chain (f : Regex → Regex → Regex) : List Regex → Regex
  | [] => empty
  | [r] => r
  | r :: rs => f r (chain f rs)

/-- Expressions one behind the other; those that are the empty text are left out. -/
def seqs (rs : List Regex) : Regex := chain seq (rs.filter (· != empty))

/-- The class of an expression that is one character. -/
def class? : Regex → Option CharClass
  | char a => some a
  | _ => none

/-- Any of several expressions; single characters are gathered in one class. -/
def alts (rs : List Regex) : Regex :=
  match rs, rs.mapM class? with
  | _ :: _ :: _, some as => char (.unions as)
  | rs, _ => chain alt rs

end Regex

end Brace
