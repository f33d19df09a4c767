/-
# Scopes

A scope is the plainest store of variables: a finite map from names to values.  Together with the
functions of a host it is an environment.
-/
import Brace.Eval.Environment
import Brace.Json.Basic
import Brace.Value.Json

namespace Brace

variable [Regex.Engine]

/-- Variables and their values. -/
structure Scope where
  /-- The values under the names of the variables. -/
  bindings : Fields Value
  /-- The names ascend. -/
  ascending : Fields.Ascending bindings

namespace Scope

/-- A scope without variables. -/
def empty : Scope := ⟨[], Fields.ascending_nil⟩

instance : Inhabited Scope := ⟨empty⟩

/-- The scope with the given variables; the last value of a variable counts. -/
def ofList (entries : List (String × Value)) : Scope :=
  ⟨Fields.ofList entries, Fields.ascending_ofList entries⟩

/-- The scope with the members of a JSON object as variables. -/
def ofJson (members : List (String × Json)) : Scope := ofList (Value.fieldsOfJson members)

/-- The value of a variable, `null` if it has none. -/
def get (name : String) (scope : Scope) : Value :=
  (Fields.lookup? name scope.bindings).getD .null

/-- Gives a variable a value. -/
def set (name : String) (a : Value) (scope : Scope) : Scope :=
  ⟨Fields.insert name a scope.bindings, scope.ascending.insert name a⟩

/-- Whether a variable has a value. -/
def contains (name : String) (scope : Scope) : Bool := Fields.contains name scope.bindings

/-- The number of variables. -/
def size (scope : Scope) : Nat := scope.bindings.length

/-- A variable that was written has its new value, and the others have their old ones. -/
theorem lookup?_set (name other : String) (a : Value) (scope : Scope) :
    Fields.lookup? other (scope.set name a).bindings =
      if name = other then some a else Fields.lookup? other scope.bindings := by
  by_cases h : name = other
  · subst h
    simp [set]
  · simp [set, Fields.lookup?_insert_of_ne h, h]

end Scope

/-- The functions of a host.  A function receives its arguments and may change what the host
remembers; the variables are out of its reach. -/
structure Host (η : Type) where
  /-- Calls the function with the given identity. -/
  call : Nat → List Value → EvalM η Value

/-- A host without functions. -/
def Host.none : Host Unit where
  call _ _ := throw (.host "no function")

/-- A scope beside what a host remembers. -/
structure Scoped (η : Type) where
  /-- The variables. -/
  scope : Scope
  /-- What the host remembers. -/
  host : η

namespace Scoped

variable {η : Type}

/-- Changes the variables. -/
def setScope (s : Scoped η) (name : String) (a : Value) : Scoped η :=
  { s with scope := s.scope.set name a }

/-- Lets the host compute. -/
def lift {α : Type} (m : EvalM η α) : EvalM (Scoped η) α :=
  ExceptT.mk fun s => (m.run.run s.host).map id fun h => { s with host := h }

/-- The environment of a scope and a host, without components. -/
def environment (host : Host η) : Environment (Scoped η) where
  load name s := (s.scope.get name, s)
  set name a s := (a, s.setScope name a)
  call id args := lift (host.call id args)

end Scoped

end Brace
