/-
# Environments

An evaluation runs in an environment, which keeps the variables and provides the functions of the
host.  All that the environment and the host remember is a state of some type `σ`, which everything
that is asked of an environment may change.  What an evaluation changed before it failed stays
changed.
-/
import Brace.Eval.Error
import Brace.Value.Basic

namespace Brace

/-- A computation on states of type `σ` that may fail. -/
abbrev EvalM (σ : Type) := ExceptT EvalError (StateM σ)

variable [Regex.Engine]

/-- What an evaluation needs from its surroundings. -/
structure Environment (σ : Type) where
  /-- Looks up the value of a variable, `null` if it has none. -/
  load : String → σ → Value × σ
  /-- Gives a variable a value, and answers the value that it has now. -/
  set : String → Value → σ → Value × σ
  /-- Calls the function with the given identity. -/
  call : Nat → List Value → EvalM σ Value
  /-- Evaluates a description of components. -/
  components : Fields Json → EvalM σ Value := fun _ => throw .componentsUnsupported

namespace Environment

variable {σ : Type}

/-- The value of a variable in a state. -/
def get (env : Environment σ) (name : String) (s : σ) : Value := (env.load name s).1

/-- Reading a variable changes nothing. -/
def ReadsPurely (env : Environment σ) : Prop := ∀ name s, env.load name s = (env.get name s, s)

/-- Reads a variable. -/
def read (env : Environment σ) (name : String) : EvalM σ Value :=
  ExceptT.mk fun s => (env.load name s).map .ok id

/-- Writes a variable. -/
def write (env : Environment σ) (name : String) (a : Value) : EvalM σ Value :=
  ExceptT.mk fun s => ((env.set name a s).map .ok id)

end Environment

end Brace
