/-
# Scripted hosts

A scripted host is a table of functions, each with a script that says what it does.  The place of a
function in the table is its identity.  Calls are written down in a log, and functions can be
added while an evaluation runs.
-/
import Brace.Eval.Scope
import Brace.Value.Number

namespace Brace

variable [Regex.Engine]

/-- What a scripted function does. -/
inductive Script where
  /-- It returns always the same value. -/
  | constant (a : Value)
  /-- It returns the list of its arguments. -/
  | list
  /-- It returns its first argument. -/
  | first
  /-- It adds its arguments from left to right. -/
  | sum
  /-- It returns how often it has been called. -/
  | counter
  /-- It fails. -/
  | fail (message : String)
  /-- It returns a new function that adds its first argument to that of this call. -/
  | adder
  /-- It adds a number to its first argument. -/
  | plus (x : Float)
  /-- It calls its first argument with the other arguments. -/
  | apply
  deriving Inhabited

/-- A function of a scripted host. -/
structure ScriptedFunction where
  /-- The name under which calls are written down, if they are. -/
  name : Option String
  /-- What the function does. -/
  script : Script
  /-- How often the function has been called. -/
  calls : Nat
  deriving Inhabited

/-- What a scripted host remembers. -/
structure ScriptedHost where
  /-- The functions; the place of a function is its identity. -/
  functions : List ScriptedFunction := []
  /-- The calls, the last one first. -/
  log : List (String × List Value) := []
  deriving Inhabited

namespace ScriptedHost

/-! ## The table and the log -/

/-- Adds a function, and answers its identity. -/
def add (h : ScriptedHost) (name : Option String) (script : Script) : Nat × ScriptedHost :=
  (h.functions.length, { h with functions := h.functions ++ [⟨name, script, 0⟩] })

/-- Writes down an event. -/
def record (h : ScriptedHost) (name : String) (args : List Value) : ScriptedHost :=
  { h with log := (name, args) :: h.log }

/-- Writes down and counts a call of the function with the given identity. -/
def enter (h : ScriptedHost) (id : Nat) (args : List Value) : ScriptedHost :=
  match h.functions[id]? with
  | none => h
  | some f =>
    let h := { h with functions := h.functions.set id { f with calls := f.calls + 1 } }
    match f.name with
    | some name => h.record name args
    | none => h

/-! ## Calls -/

/-- The sum of the values as numbers, from left to right. -/
def total (args : List Value) : Float := args.foldl (fun x a => x + a.toNumber) 0

/-- The first argument as a number, zero if there is none. -/
def firstNumber : List Value → Float
  | [] => 0
  | a :: _ => a.toNumber

/-- Calls the function with the given identity. -/
def call (id : Nat) (args : List Value) : EvalM ScriptedHost Value := do
  modify (·.enter id args)
  match (← get).functions[id]? with
  | none => throw (.host "no such function")
  | some f =>
    match f.script with
    | .constant a => pure a
    | .list => pure (.array args)
    | .first => pure (args.head?.getD .null)
    | .sum => pure (.number (total args))
    | .counter => pure (.number (Number.ofNat f.calls))
    | .fail message => throw (.host message)
    | .adder => do
      let (made, h) := (← get).add none (.plus (firstNumber args))
      set h
      pure (.function made)
    | .plus x => pure (.number (x + firstNumber args))
    | .apply =>
      match args with
      | .function g :: rest => call g rest
      | _ => throw (.host "apply: not a function")

/-- The functions of a scripted host. -/
def host : Host ScriptedHost where
  call := call

end ScriptedHost

/-! ## Environments for scripted hosts -/

/-- The ways in which a host can serve the variables and the components. -/
inductive Surroundings where
  /-- The variables of a scope and nothing else. -/
  | plain
  /-- Components are written down, and their number is their value. -/
  | renderer
  /-- Some names cannot be written and others are not stored at all. -/
  | guarded
  deriving DecidableEq, Repr

namespace Surroundings

/-- The variables of a scope beside a scripted host. -/
abbrev State := Scoped ScriptedHost

/-- The beginning of the names that cannot be written. -/
def fixedMark : String := "ro_"

/-- The beginning of the names whose remainder is their value. -/
def namedMark : String := "dyn_"

/-- Reads a variable behind a guard. -/
def guardedGet (name : String) (s : State) : Value :=
  match namedMark.toList.isPrefixOf? name.toList with
  | some rest => .string (String.ofList rest)
  | none => s.scope.get name

/-- Writes a variable behind a guard. -/
def guardedSet (name : String) (a : Value) (s : State) : Value × State :=
  if fixedMark.toList.isPrefixOf name.toList then (guardedGet name s, s)
  else (a, s.setScope name a)

/-- Writes the names of components down and counts them. -/
def render (entries : Fields Json) : EvalM State Value := do
  let names := Fields.names entries
  modify fun s => { s with host := s.host.record "<components>" (names.map .string) }
  pure (.number (Number.ofNat names.length))

/-- The environment of a scripted host. -/
def environment : Surroundings → Environment State
  | plain => Scoped.environment ScriptedHost.host
  | renderer => { Scoped.environment ScriptedHost.host with components := render }
  | guarded =>
    { Scoped.environment ScriptedHost.host with
      load := fun name s => (guardedGet name s, s), set := guardedSet }

end Surroundings

end Brace
