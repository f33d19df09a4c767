/-
# Evaluation of nodes

A node is evaluated by evaluating its parts from left to right.  The first failure ends the
evaluation.  The right operand of `and` and `or` is only evaluated if the left one does not decide
the result, and of a conditional only the branch that is taken.
-/
import Brace.Eval.Environment
import Brace.Eval.Operation
import Brace.Value.Json
import Brace.Value.Member

namespace Brace.Node

variable [Regex.Engine] {σ : Type}

/-- Makes a regular expression a value. -/
def compile (source flags : String) : EvalM σ Value :=
  MonadExcept.ofExcept ((Pattern.compile source flags).map .pattern)

mutual

/-- The value of a node in an environment. -/
def eval (env : Environment σ) : Node → EvalM σ Value
  | number x => pure (.number x)
  | string s => pure (.string s)
  | boolean b => pure (.boolean b)
  | null => pure .null
  | raw j => pure (Value.ofJson j)
  | regexp source flags => compile source flags
  | identifier name => env.read name
  | unary op a => do
    let x ← a.eval env
    pure (op.apply x)
  | binary op a b => do
    let x ← a.eval env
    -- The right operand is left alone where the left one decides.
    if op.decidedBy x then pure x
    else
      let y ← b.eval env
      MonadExcept.ofExcept (op.apply x y)
  | assign (identifier name) a => do
    let x ← a.eval env
    env.write name x
  | assign target _ => throw (.badTarget target)
  | call f args => do
    -- No argument is evaluated unless the callee is a function.
    match ← f.eval env with
    | .function id =>
      let xs ← evalAll env args
      env.call id xs
    | _ => throw (.notCallable f)
  | member a b => do
    let x ← a.eval env
    let y ← b.eval env
    pure (x.getMember y)
  | object properties => do
    let entries ← evalProperties env properties
    pure (.object (Fields.ofList entries))
  | array elements => do
    let xs ← evalAll env elements
    pure (.array xs)
  | template quasis expressions => do
    let s ← evalTemplate env quasis expressions
    pure (.string s)
  | program body | block body => evalBody env .null body
  | conditional a b c => do
    let x ← a.eval env
    if x.isTruthy then evalBranch env b else evalBranch env c
  | components entries => env.components entries

/-- The values of nodes. -/
def evalAll (env : Environment σ) : List Node → EvalM σ (List Value)
  | [] => pure []
  | a :: as => do
    let x ← a.eval env
    let xs ← evalAll env as
    pure (x :: xs)

/-- The entries of an object literal.  A key is evaluated like every other node, and its display
text is the name. -/
def evalProperties (env : Environment σ) : List (Node × Node) → EvalM σ (List (String × Value))
  | [] => pure []
  | (a, b) :: rest => do
    let key ← a.eval env
    let x ← b.eval env
    let entries ← evalProperties env rest
    pure ((key.display, x) :: entries)

/-- The text of a template: pieces of text and expressions take turns. -/
def evalTemplate (env : Environment σ) (quasis : List String) : List Node → EvalM σ String
  | [] => pure (String.join quasis)
  | a :: as =>
    match quasis with
    | [] => pure ""
    | q :: qs => do
      let x ← a.eval env
      let rest ← evalTemplate env qs as
      pure (q ++ x.interpolated ++ rest)

/-- The value of the last of several statements; `last` is the value of the statement in front. -/
def evalBody (env : Environment σ) (last : Value) : List Node → EvalM σ Value
  | [] => pure last
  | a :: as => do
    let x ← a.eval env
    evalBody env x as

/-- The value of a branch, `null` if it is missing. -/
def evalBranch (env : Environment σ) : Option Node → EvalM σ Value
  | none => pure .null
  | some a => a.eval env

end

/-- The answer of evaluating a node and the state that it leaves. -/
def run (env : Environment σ) (n : Node) (s : σ) : Except EvalError Value × σ :=
  (n.eval env).run.run s

end Brace.Node
