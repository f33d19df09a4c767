/-
# Syntax trees

The nodes of the tree that a source is parsed into.  A node is plain data; nothing in it refers to
the source or to an environment.
-/
import Brace.Json.Basic
import Brace.Operator

namespace Brace

/-- A node of a syntax tree. -/
inductive Node where
  /-- A number. -/
  | number (value : Float)
  /-- A text. -/
  | string (value : String)
  /-- A truth value. -/
  | boolean (value : Bool)
  /-- The literal `null`. -/
  | null
  /-- A value of the host that is passed through as it is. -/
  | raw (value : Json)
  /-- A regular expression, compiled only when it is evaluated. -/
  | regexp (pattern flags : String)
  /-- A variable. -/
  | identifier (name : String)
  /-- An operation on one operand. -/
  | unary (operator : UnaryOp) (argument : Node)
  /-- An operation on two operands. -/
  | binary (operator : BinaryOp) (left right : Node)
  /-- An assignment. -/
  | assign (target value : Node)
  /-- A call of a function. -/
  | call (callee : Node) (arguments : List Node)
  /-- The member of a value. -/
  | member (object property : Node)
  /-- An object, as pairs of a key and a value. -/
  | object (properties : List (Node × Node))
  /-- A list. -/
  | array (elements : List Node)
  /-- A template: pieces of text with expressions between them. -/
  | template (quasis : List String) (expressions : List Node)
  /-- A sequence of statements at the top. -/
  | program (body : List Node)
  /-- A sequence of statements in braces. -/
  | block (body : List Node)
  /-- A conditional; either branch may be missing. -/
  | conditional (test : Node) (consequent alternate : Option Node)
  /-- A description of components, which only the host understands. -/
  | components (entries : List (String × Json))
  deriving Inhabited

namespace Node

/-! ## Kinds -/

/-- The name of the kind of a node. -/
def kind : Node → String
  | number _ => "Numeric"
  | string _ => "String"
  | boolean _ => "Boolean"
  | null => "Null"
  | raw _ => "Raw"
  | regexp .. => "RegExp"
  | identifier _ => "Identifier"
  | unary .. => "UnaryExpression"
  | binary .. => "BinaryExpression"
  | assign .. => "AssignExpression"
  | call .. => "CallExpression"
  | member .. => "MemberExpression"
  | object _ => "ObjectExpression"
  | array _ => "ArrayExpression"
  | template .. => "TemplateLiteral"
  | program _ => "Program"
  | block _ => "BlockStatement"
  | conditional .. => "IfStatement"
  | components _ => "Components"

/-- Whether a node is a variable. -/
def isIdentifier : Node → Bool
  | identifier _ => true
  | _ => false

/-- Whether a node can be the key of an object literal. -/
def isKey : Node → Bool
  | identifier _ | string _ | number _ => true
  | _ => false

/-- Whether a node is a sequence of statements in braces. -/
def isBlock : Node → Bool
  | block _ => true
  | _ => false

/-- Whether a node is an operation on one operand. -/
def isUnary : Node → Bool
  | unary .. => true
  | _ => false

/-! ## Sequences of statements -/

/-- A sequence of statements, made a node by `wrap` unless it is a single one. -/
def ofStatements (wrap : List Node → Node) : List Node → Node
  | [statement] => statement
  | body => wrap body

/-! ## Equality -/

mutual

/-- Whether two nodes are equal.  Numbers are compared as numbers: the zeros are equal, and a node
with a value that is not a number differs from itself. -/
def same : Node → Node → Bool
  | number x, number y => x == y
  | string s, string t => s == t
  | boolean a, boolean b => a == b
  | null, null => true
  | raw i, raw j => i.same j
  | regexp p f, regexp q g => p == q && f == g
  | identifier m, identifier n => m == n
  | unary o a, unary p b => o == p && same a b
  | binary o a b, binary p c d => o == p && same a c && same b d
  | assign a b, assign c d => same a c && same b d
  | call a as, call b bs => same a b && sameAll as bs
  | member a b, member c d => same a c && same b d
  | object ps, object qs => samePairs ps qs
  | array as, array bs => sameAll as bs
  | template ss as, template ts bs => ss == ts && sameAll as bs
  | program as, program bs => sameAll as bs
  | block as, block bs => sameAll as bs
  | conditional a b c, conditional d e f => same a d && sameOption b e && sameOption c f
  | components e, components f => Json.sameFields e f
  | _, _ => false

/-- Whether two lists of nodes are equal. -/
def sameAll : List Node → List Node → Bool
  | [], [] => true
  | a :: as, b :: bs => same a b && sameAll as bs
  | _, _ => false

/-- Whether two lists of pairs of nodes are equal. -/
def samePairs : List (Node × Node) → List (Node × Node) → Bool
  | [], [] => true
  | (a, b) :: ps, (c, d) :: qs => same a c && same b d && samePairs ps qs
  | _, _ => false

/-- Whether two nodes that may be missing are equal. -/
def sameOption : Option Node → Option Node → Bool
  | none, none => true
  | some a, some b => same a b
  | _, _ => false

end

end Node

end Brace
