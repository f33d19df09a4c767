/-
# Operations on values

What the operators do with the values of their operands.  Only searching with a text that the engine
refuses as a regular expression fails.
-/
import Brace.Eval.Error
import Brace.Value.Number
import Brace.Value.Text

namespace Brace

variable [Regex.Engine]

/-- The pattern with the given source and flags.  A failure keeps the source as it was written. -/
def Pattern.compile (source flags : String) : Except EvalError Pattern :=
  (make source flags).mapError fun message => @EvalError.badPattern message source

/-! ## Comparison -/

/-- The order of two numbers; what is not a number is in no order. -/
def Number.order? (x y : Float) : Option Ordering :=
  if x < y then some .lt
  else if x == y then some .eq
  else if y < x then some .gt
  else none

namespace Value

/-- The order of two values: texts are compared character by character, all else as numbers. -/
def order? : Value → Value → Option Ordering
  | string s, string t => some (compareOfLessAndEq s t)
  | a, b => Number.order? a.toNumber b.toNumber

/-! ## Joining and searching -/

/-- Whether a value is a text. -/
def isString : Value → Bool
  | string _ => true
  | _ => false

/-- The sum of two values, or the joined texts if one of them is a text. -/
def plus (a b : Value) : Value :=
  if a.isString || b.isString then string (a.display ++ b.display)
  else number (a.toNumber + b.toNumber)

/-- The text in which a pattern is searched; an absent value has no text. -/
def subject (a : Value) : String := if a.isNull then "" else a.display

/-- The pattern that a value stands for: a pattern stands for itself, anything else for the one
written by its display text. -/
def toPattern : Value → Except EvalError Pattern
  | pattern p => .ok p
  | a => Pattern.compile a.display ""

/-- Whether the pattern `b` is found in the text of `a`. -/
def search (a b : Value) : Except EvalError Bool :=
  b.toPattern.map fun p => p.test a.subject

end Value

/-! ## Operators -/

/-- Applies an operation to one value. -/
def UnaryOp.apply : UnaryOp → Value → Value
  | not, a => .boolean (!a.isTruthy)
  | plus, a => .number a.toNumber
  | minus, a => .number (-a.toNumber)

namespace BinaryOp

/-- Whether the left operand alone decides the result, which then is this operand. -/
def decidedBy : BinaryOp → Value → Bool
  | and, a => !a.isTruthy
  | or, a => a.isTruthy
  | _, _ => false

/-- Applies an operation to two values. -/
def apply : BinaryOp → Value → Value → Except EvalError Value
  | add, a, b => .ok (a.plus b)
  | subtract, a, b => .ok (.number (a.toNumber - b.toNumber))
  | multiply, a, b => .ok (.number (a.toNumber * b.toNumber))
  | divide, a, b => .ok (.number (a.toNumber / b.toNumber))
  | remainder, a, b => .ok (.number (Number.remainder a.toNumber b.toNumber))
  | less, a, b => .ok (.boolean (a.order? b == some .lt))
  | lessEqual, a, b => .ok (.boolean (a.order? b == some .lt || a.order? b == some .eq))
  | greater, a, b => .ok (.boolean (a.order? b == some .gt))
  | greaterEqual, a, b => .ok (.boolean (a.order? b == some .gt || a.order? b == some .eq))
  | equal, a, b => .ok (.boolean (a.same b))
  | notEqual, a, b => .ok (.boolean (!a.same b))
  | test, a, b => (a.search b).map .boolean
  | and, a, b => .ok (if a.isTruthy then b else a)
  | or, a, b => .ok (if a.isTruthy then a else b)

/-- An operation that its left operand decides has this operand as its result. -/
theorem apply_of_decidedBy {op : BinaryOp} {a : Value} (h : op.decidedBy a = true) (b : Value) :
    op.apply a b = .ok a := by
  cases op <;> simp_all [decidedBy, apply]

end BinaryOp

end Brace
