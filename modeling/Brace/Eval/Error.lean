/-
# Errors of evaluation

Unbound variables and members of `null` are no errors, both are `null`.  What remains are the
failures below.
-/
import Brace.Node.Source

namespace Brace

/-- Why a node has no value. -/
inductive EvalError where
  /-- The callee of a call is not a function. -/
  | notCallable (callee : Node)
  /-- A regular expression is refused.  The message is that of the engine; it is left implicit, as
  the pattern and its flags determine it. -/
  | badPattern {message : String} (source : String)
  /-- An assignment to something other than a variable. -/
  | badTarget (target : Node)
  /-- The environment has no use for components. -/
  | componentsUnsupported
  /-- A function of the host failed. -/
  | host (message : String)
  deriving Inhabited

namespace EvalError

/-- The wording of an error. -/
def message : EvalError → String
  | notCallable n =>
    "Wrong call expression, callee has to be a function: `" ++ n.source ++ "`"
  | @badPattern message source => "Invalid regular expression /" ++ source ++ "/: " ++ message
  | badTarget n => "You can only assign to an identifier, not `" ++ n.source ++ "`"
  | componentsUnsupported => "Environment does not support evaluating components"
  | host message => message

end EvalError

end Brace
