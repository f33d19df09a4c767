/-
# Reading JSON

A whole text is read as one value.  The tokens are taken one by one, with the lists and objects
that are still open on a stack; how many may be open at once is limited.  Of two members with one
name the last counts.
-/
import Brace.Json.Token

namespace Brace.Json

/-! ## Lists and objects under construction -/

/-- A list or an object that is still open, with what it holds so far. -/
inductive Frame where
  /-- A list, its items so far, the last one first. -/
  | list (items : List Json)
  /-- An object, its members so far, and the name of the member under construction. -/
  | object (fields : List (String × Json)) (name : String)
  deriving Repr

/-- What may come next. -/
inductive Expecting where
  /-- A value. -/
  | value
  /-- A value, or the end of a list that has just been opened. -/
  | firstItem
  /-- The name of a member. -/
  | name
  /-- The name of a member, or the end of an object that has just been opened. -/
  | firstName
  /-- The colon behind the name of a member. -/
  | colon
  /-- A comma or a closing bracket, or the end of the text if nothing is open. -/
  | separator
  deriving DecidableEq, Repr

/-- How far reading has come. -/
structure Reading where
  /-- The open lists and objects, the innermost one first. -/
  frames : List Frame
  /-- What may come next. -/
  expecting : Expecting
  /-- The last value that was completed outside every open list and object. -/
  result : Option Json

namespace Reading

/-- Before the first token. -/
def start : Reading := ⟨[], .value, none⟩

/-- A value has been completed. -/
def complete (j : Json) : List Frame → Reading
  | [] => ⟨[], .separator, some j⟩
  | .list items :: frames => ⟨.list (j :: items) :: frames, .separator, none⟩
  | .object fields name :: frames =>
    ⟨.object (Fields.insert name j fields) name :: frames, .separator, none⟩

/-- Reads one more token, with at most `limit` lists and objects open at once. -/
def step (limit : Nat) (r : Reading) (t : Token) : Except ReadError Reading :=
  match r.expecting, t, r.frames with
  | .value, .scalar j, frames | .firstItem, .scalar j, frames => .ok (complete j frames)
  | .value, .openArray, frames | .firstItem, .openArray, frames =>
    if frames.length < limit then .ok ⟨.list [] :: frames, .firstItem, none⟩
    else .error .tooDeep
  | .value, .openObject, frames | .firstItem, .openObject, frames =>
    if frames.length < limit then .ok ⟨.object [] "" :: frames, .firstName, none⟩
    else .error .tooDeep
  -- Behind a comma an item must follow, so a list is closed only where it is empty or has just got
  -- one.
  | .firstItem, .closeArray, .list items :: frames
  | .separator, .closeArray, .list items :: frames =>
    .ok (complete (.array items.reverse) frames)
  | .firstName, .closeObject, .object fields _ :: frames
  | .separator, .closeObject, .object fields _ :: frames =>
    .ok (complete (.object fields) frames)
  | .firstName, .scalar (.string name), .object fields _ :: frames
  | .name, .scalar (.string name), .object fields _ :: frames =>
    .ok ⟨.object fields name :: frames, .colon, none⟩
  | .colon, .colon, frames => .ok ⟨frames, .value, none⟩
  | .separator, .comma, .list items :: frames => .ok ⟨.list items :: frames, .value, none⟩
  | .separator, .comma, .object fields name :: frames =>
    .ok ⟨.object fields name :: frames, .name, none⟩
  | _, _, _ => .error .misplaced

end Reading

/-! ## Whole texts -/

/-- How deep lists and objects may be nested unless the caller says otherwise. -/
def defaultDepth : Nat := 127

/-- Reads a whole text as one value, with lists and objects nested at most `limit` deep. -/
def read (limit : Nat) (text : String) : Except ReadError Json := do
  let ts ← tokens text.toList
  let r ← ts.foldlM (Reading.step limit) Reading.start
  match r.result with
  | some j => pure j
  | none => throw .unexpectedEnd

end Brace.Json
