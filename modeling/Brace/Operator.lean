/-
# Operators

An operator of the source text, a `Operator`, becomes a binary operation, a prefix operation or an
assignment, depending on where it stands.  The binding strengths of the binary ones are in
`Operator.precedence?`.
-/

namespace Brace

/-! ## Operations of the tree -/

/-- The operations on two operands. -/
inductive BinaryOp where
  /-- Same kind and same contents. -/
  | equal
  /-- The negation of `equal`. -/
  | notEqual
  /-- Less than. -/
  | less
  /-- Greater than. -/
  | greater
  /-- Less than or equal. -/
  | lessEqual
  /-- Greater than or equal. -/
  | greaterEqual
  /-- Whether a regular expression matches. -/
  | test
  /-- Addition of numbers, or joining of texts. -/
  | add
  /-- Subtraction. -/
  | subtract
  /-- Multiplication. -/
  | multiply
  /-- Division. -/
  | divide
  /-- The remainder of a division. -/
  | remainder
  /-- The right operand if the left one is truthy, else the left one. -/
  | and
  /-- The left operand if it is truthy, else the right one. -/
  | or
  deriving DecidableEq, Repr, Inhabited

/-- The operations on one operand, written in front of it. -/
inductive UnaryOp where
  /-- Logical negation. -/
  | not
  /-- The operand as a number. -/
  | plus
  /-- The operand as a number, negated. -/
  | minus
  deriving DecidableEq, Repr, Inhabited

namespace BinaryOp

/-- All operations on two operands. -/
def all : List BinaryOp :=
  [equal, notEqual, less, greater, lessEqual, greaterEqual, test, add, subtract, multiply,
   divide, remainder, and, or]

/-- How an operation is written. -/
def spelling : BinaryOp → String
  | equal => "is"
  | notEqual => "isnt"
  | less => "<"
  | greater => ">"
  | lessEqual => "<="
  | greaterEqual => ">="
  | test => "match"
  | add => "+"
  | subtract => "-"
  | multiply => "*"
  | divide => "/"
  | remainder => "%"
  | and => "and"
  | or => "or"

/-- The operation with a given spelling. -/
def ofSpelling? (s : String) : Option BinaryOp := all.find? (·.spelling = s)

/-- Every operation is found under its spelling. -/
theorem ofSpelling?_spelling (op : BinaryOp) : ofSpelling? op.spelling = some op := by
  cases op <;> decide

end BinaryOp

namespace UnaryOp

/-- All prefix operations. -/
def all : List UnaryOp := [not, plus, minus]

/-- How an operation is written. -/
def spelling : UnaryOp → String
  | not => "not"
  | plus => "+"
  | minus => "-"

/-- The operation with a given spelling. -/
def ofSpelling? (s : String) : Option UnaryOp := all.find? (·.spelling = s)

/-- Every operation is found under its spelling. -/
theorem ofSpelling?_spelling (op : UnaryOp) : ofSpelling? op.spelling = some op := by
  cases op <;> decide

end UnaryOp

/-! ## Operators of the source -/

/-- An operator as it is written. -/
inductive Operator where
  /-- The sign `+`. -/
  | plus
  /-- The sign `-`. -/
  | minus
  /-- The sign `*`. -/
  | star
  /-- The sign `/`. -/
  | slash
  /-- The sign `%`. -/
  | percent
  /-- The sign `=`. -/
  | assign
  /-- The sign `>`. -/
  | greater
  /-- The sign `>=`. -/
  | greaterEqual
  /-- The sign `<`. -/
  | less
  /-- The sign `<=`. -/
  | lessEqual
  /-- The word `is`. -/
  | is
  /-- The word `isnt`. -/
  | isnt
  /-- The word `and`. -/
  | and
  /-- The word `or`. -/
  | or
  /-- The word `not`. -/
  | not
  /-- The word `match`. -/
  | match_
  deriving DecidableEq, Repr, Inhabited

namespace Operator

/-- How an operator is written. -/
def spelling : Operator → String
  | plus => "+"
  | minus => "-"
  | star => "*"
  | slash => "/"
  | percent => "%"
  | assign => "="
  | greater => ">"
  | greaterEqual => ">="
  | less => "<"
  | lessEqual => "<="
  | is => "is"
  | isnt => "isnt"
  | and => "and"
  | or => "or"
  | not => "not"
  | match_ => "match"

/-- The operators that are words. -/
def ofWord? (word : String) : Option Operator :=
  [is, isnt, and, or, not, match_].find? (·.spelling = word)

/-- The operators that are one sign.  The comparisons are not among them, since an equals sign may
follow theirs. -/
def ofChar? : Char → Option Operator
  | '+' => some plus
  | '-' => some minus
  | '*' => some star
  | '/' => some slash
  | '%' => some percent
  | '=' => some assign
  | _ => none

/-- How strongly an operator binds between two operands; `none` if it cannot stand there. -/
def precedence? : Operator → Option Nat
  | assign => some 1
  | or => some 2
  | and => some 3
  | greater | greaterEqual | less | lessEqual | is | isnt | match_ => some 7
  | plus | minus => some 10
  | star | slash | percent => some 20
  | not => none

/-- The operation that an operator stands for between two operands. -/
def binary? : Operator → Option BinaryOp
  | plus => some .add
  | minus => some .subtract
  | star => some .multiply
  | slash => some .divide
  | percent => some .remainder
  | greater => some .greater
  | greaterEqual => some .greaterEqual
  | less => some .less
  | lessEqual => some .lessEqual
  | is => some .equal
  | isnt => some .notEqual
  | and => some .and
  | or => some .or
  | match_ => some .test
  | assign | not => none

/-- The operation that an operator stands for in front of an operand. -/
def unary? : Operator → Option UnaryOp
  | not => some .not
  | plus => some .plus
  | minus => some .minus
  | _ => none

/-- An operator is spelled like the operation that it stands for between two operands. -/
theorem spelling_of_binary? {o : Operator} {op : BinaryOp} (h : o.binary? = some op) :
    op.spelling = o.spelling := by
  cases o <;> cases h <;> rfl

/-- An operator is spelled like the operation that it stands for in front of an operand. -/
theorem spelling_of_unary? {o : Operator} {op : UnaryOp} (h : o.unary? = some op) :
    op.spelling = o.spelling := by
  cases o <;> cases h <;> rfl

end Operator

end Brace
