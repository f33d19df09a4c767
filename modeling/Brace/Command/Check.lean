/-
# Checking an expression

An expression is parsed and, if nothing else is asked for, evaluated with the members of a JSON
object as variables.  A malformed expression is reported before the variables are looked at.
-/
import Brace.Eval.Node
import Brace.Eval.Scope
import Brace.Json.Reader
import Brace.Node.Json
import Brace.Parser.Text

namespace Brace

/-- What is to be checked. -/
structure CheckOptions where
  /-- The source. -/
  expression : String
  /-- The JSON text of the variables, if there is one. -/
  input : Option String := none
  /-- Whether the source is the body of a template. -/
  template : Bool := false
  /-- Whether the tree is wanted and not the value. -/
  ast : Bool := false
  /-- Whether nothing but the syntax is looked at. -/
  syntaxOnly : Bool := false
  deriving DecidableEq, Repr, Inhabited

/-- The answer of a check. -/
inductive CheckResult where
  /-- The source is well formed. -/
  | wellFormed
  /-- The tree of the source. -/
  | tree (j : Json)
  /-- The value of the source. -/
  | value (j : Json)
  deriving Inhabited

/-- Why a check fails. -/
inductive CheckError where
  /-- The source cannot be parsed. -/
  | parse (e : ParseError)
  /-- The source cannot be evaluated. -/
  | eval (e : EvalError)
  /-- The text of the variables is not JSON. -/
  | json (e : Json.ReadError)
  /-- The text of the variables is JSON, but no object. -/
  | notObject (found : Json)
  deriving Inhabited

/-- The kind of a JSON value in words. -/
def Json.kind : Json → String
  | null => "null"
  | bool _ => "a boolean"
  | int _ | float _ => "a number"
  | string _ => "a string"
  | array _ => "an array"
  | object _ => "an object"

/-- The wording of an error. -/
def CheckError.message : CheckError → String
  | parse e => "Parse error: " ++ e.message
  | eval e => "Evaluation error: " ++ e.message
  | json e => "Invalid JSON: " ++ e.message
  | notObject j =>
    "Input has to be a JSON object of variable bindings, got " ++ j.kind

namespace CheckOptions

/-- The tree of the source. -/
def parse (o : CheckOptions) : Except ParseError Node :=
  if o.template then parseTemplate o.expression else Brace.parse o.expression

variable [Regex.Engine]

/-- The variables; there are none if the text is missing or blank. -/
def scope (o : CheckOptions) : Except CheckError Scope :=
  let text := Text.trim (o.input.getD "").toList
  if text.isEmpty then .ok .empty
  else
    match Json.read Json.defaultDepth (String.ofList text) with
    | .error e => .error (.json e)
    | .ok (.object members) => .ok (.ofJson members)
    | .ok j => .error (.notObject j)

/-- Checks an expression. -/
def check (o : CheckOptions) : Except CheckError CheckResult := do
  let n ← o.parse.mapError .parse
  if o.syntaxOnly then pure .wellFormed
  else if o.ast then pure (.tree n.toJson)
  else
    let scope ← o.scope
    let (answer, _) := n.run (Scoped.environment .none) ⟨scope, ()⟩
    let a ← answer.mapError .eval
    pure (.value a.toJson)

end CheckOptions

end Brace
