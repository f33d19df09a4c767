/-
# Reading a stored node by look-ups

A stored node is read by looking its parts up by name (`Node.ofJson?_eq`), so what was written under
a name is read from there, whatever order the members are in.  The readers in the model carry
along that a part is smaller than the whole; here they are stated without it.
-/
import Brace.Node.Json

namespace Brace.Node

/-- The parts of a node with the given members, each read from the member of its name. -/
def Parts.ofMembers (members : List (String × Json)) : Parts where
  members := members
  node name := Fields.lookup? name members >>= ofJson? true
  nodes name := Fields.lookup? name members >>= listOfJson?
  entries name := Fields.lookup? name members >>= pairsOfJson?
  branch name := (Fields.lookup? name members).elim (some none) branchOfJson?

section

variable (members : List (String × Json)) (name : String)

@[simp]
theorem Parts.members_ofMembers : (ofMembers members).members = members := rfl

@[simp]
theorem Parts.data_ofMembers {α : Type} (read : Json → Option α) :
    (ofMembers members).data name read = Fields.lookup? name members >>= read := rfl

@[simp]
theorem Parts.node_ofMembers :
    (ofMembers members).node name = Fields.lookup? name members >>= ofJson? true := rfl

@[simp]
theorem Parts.nodes_ofMembers :
    (ofMembers members).nodes name = Fields.lookup? name members >>= listOfJson? := rfl

@[simp]
theorem Parts.entries_ofMembers :
    (ofMembers members).entries name = Fields.lookup? name members >>= pairsOfJson? := rfl

@[simp]
theorem Parts.branch_ofMembers :
    (ofMembers members).branch name =
      (Fields.lookup? name members).elim (some none) branchOfJson? := rfl

end

/-- A part of a record is found by looking its name up. -/
theorem Record.map_part? {j : Json} (r : Record j) (name : String) :
    (r.part? name).map (·.1) = Fields.lookup? name r.members := by
  unfold Record.part?
  split
  · next h => exact h.symm
  · next h => exact h.symm

/-- To read a part is to look it up and read what is found. -/
theorem Record.bind_part? {j : Json} {β : Type} (r : Record j) (name : String)
    (read : Json → Option β) :
    (r.part? name >>= fun x => read x.1) = Fields.lookup? name r.members >>= read := by
  rw [← r.map_part? name]
  cases r.part? name <;> rfl

/-- A node is read by its kind from its members. -/
theorem ofJson?_eq (nested : Bool) (j : Json) :
    ofJson? nested j = stored? nested j >>= fun s => assemble? s.kind (.ofMembers s.members) := by
  rw [ofJson?]
  refine congrArg (stored? nested j >>= ·) (funext fun s => ?_)
  -- Part by part, the reader of the model is the look-up followed by the reading.
  refine congrArg (assemble? s.kind) (Parts.mk.injEq .. ▸ ⟨rfl, ?_, ?_, ?_, ?_⟩)
  · exact funext fun name => s.bind_part? name (ofJson? true)
  · exact funext fun name => s.bind_part? name listOfJson?
  · exact funext fun name => s.bind_part? name pairsOfJson?
  · funext name
    rw [← s.map_part? name]
    cases s.part? name <;> rfl

/-- An entry is read from the members for its key and its value. -/
theorem entryOfJson?_eq (j : Json) :
    entryOfJson? j = record? ["key", "value"] j >>= fun r =>
      (Fields.lookup? "key" r.members >>= ofJson? true) >>= fun key =>
        (Fields.lookup? "value" r.members >>= ofJson? true) >>= fun value =>
          some (key, value) := by
  rw [entryOfJson?]
  refine congrArg (record? ["key", "value"] j >>= ·) (funext fun r => ?_)
  rw [← r.bind_part? "key", ← r.bind_part? "value"]
  rfl

theorem itemsOfJson?_eq (items : List Json) : itemsOfJson? items = items.mapM (ofJson? true) := by
  induction items with
  | nil => rw [itemsOfJson?]; rfl
  | cons j items ih =>
    rw [itemsOfJson?, ih, List.mapM_cons]

/-- Entries of a list are read one by one. -/
theorem entriesOfJson?_eq (items : List Json) :
    entriesOfJson? items = items.mapM entryOfJson? := by
  induction items with
  | nil => rw [entriesOfJson?]; rfl
  | cons j items ih =>
    rw [entriesOfJson?, ih, List.mapM_cons]

/-- An object with a kind is a stored node. -/
theorem stored?_object {nested : Bool} {fields : List (String × Json)} {kind : String}
    (h : Fields.lookup? "type" fields >>= kindOf? nested = some kind) :
    stored? nested (.object fields) =
      some ⟨⟨fields, fun _ h => sizeOf_lt_of_mem h⟩, kind⟩ := by
  rw [stored?, h]
  rfl

/-- A node that is stored as an object is read from its members, the kind among them. -/
theorem ofJson?_object (nested : Bool) (fields : List (String × Json)) :
    ofJson? nested (.object fields) =
      Fields.lookup? "type" fields >>= kindOf? nested >>= fun kind =>
        assemble? kind (.ofMembers fields) := by
  rw [ofJson?_eq, stored?]
  cases Fields.lookup? "type" fields >>= kindOf? nested <;> rfl

/-- What is written with a kind is read by this kind from what is written. -/
theorem ofJson?_tagged {nested : Bool} {kind : String} {members : List (String × Json)}
    (h : Fields.lookup? "type" members.reverse = none) :
    ofJson? nested (tagged kind members) =
      assemble? kind (.ofMembers (Fields.ofList (("type", .string kind) :: members))) := by
  have htag : Fields.lookup? "type" (Fields.ofList (("type", Json.string kind) :: members)) =
      some (.string kind) := by
    rw [Fields.lookup?_ofList, List.reverse_cons, Fields.lookup?_append, h]
    rfl
  rw [tagged, Json.ofMembers, ofJson?_object, htag]
  rfl

end Brace.Node
