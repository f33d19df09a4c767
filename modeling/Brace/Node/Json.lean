/-
# Nodes as JSON

A node is stored as an object whose member `type` names its kind and whose other members are its
parts.  Writing leaves out missing branches and stores a number that is not finite as `null`.
Reading ignores members that the kind does not have.

Reading accepts spellings that writing never uses.  A node may be a list: its kind, then its parts
in the order of `Node.partNames?`; an entry of an object literal and a piece of a template may be
lists of their parts, too.  Inside another node the kind may be given by its place in `Node.kinds`,
and an operator may be given as an object whose only member bears its name.
-/
import Brace.Json.Basic
import Brace.Node.Basic
import Brace.Number.Binary

namespace Brace.Node

/-! ## Writing -/

/-- The object of a kind with the given parts. -/
def tagged (kind : String) (members : List (String × Json)) : Json :=
  Json.ofMembers (("type", .string kind) :: members)

/-- A number, or `null` if it is not finite. -/
def numberJson (x : Float) : Json := if Number.isFinite x then .float x else .null

/-- A piece of the text of a template. -/
def quasiJson (s : String) : Json := tagged "String" [("value", .string s)]

mutual

/-- The JSON form of a node. -/
def toJson : Node → Json
  | number x => tagged "Numeric" [("value", numberJson x)]
  | string s => tagged "String" [("value", .string s)]
  | boolean b => tagged "Boolean" [("value", .bool b)]
  | null => tagged "Null" []
  | raw j => tagged "Raw" [("value", j)]
  | regexp pattern flags =>
    tagged "RegExp" [("pattern", .string pattern), ("flags", .string flags)]
  | identifier name => tagged "Identifier" [("name", .string name)]
  | unary op a =>
    tagged "UnaryExpression" [("operator", .string op.spelling), ("argument", toJson a)]
  | binary op a b =>
    tagged "BinaryExpression"
      [("operator", .string op.spelling), ("left", toJson a), ("right", toJson b)]
  | assign a b => tagged "AssignExpression" [("left", toJson a), ("right", toJson b)]
  | call f as =>
    tagged "CallExpression" [("callee", toJson f), ("arguments", .array (listToJson as))]
  | member a b => tagged "MemberExpression" [("object", toJson a), ("property", toJson b)]
  | object ps => tagged "ObjectExpression" [("properties", .array (pairsToJson ps))]
  | array as => tagged "ArrayExpression" [("elements", .array (listToJson as))]
  | template quasis as =>
    tagged "TemplateLiteral"
      [("quasis", .array (quasis.map quasiJson)), ("expressions", .array (listToJson as))]
  | program as => tagged "Program" [("body", .array (listToJson as))]
  | block as => tagged "BlockStatement" [("body", .array (listToJson as))]
  | conditional a b c =>
    tagged "IfStatement"
      (("test", toJson a) :: (branchToJson "consequent" b ++ branchToJson "alternate" c))
  -- The entries stand beside the kind and not under a name of their own.
  | components entries => tagged "Components" entries

/-- The JSON forms of nodes. -/
def listToJson : List Node → List Json
  | [] => []
  | a :: as => toJson a :: listToJson as

/-- The JSON forms of the entries of an object literal. -/
def pairsToJson : List (Node × Node) → List Json
  | [] => []
  | (a, b) :: ps =>
    Json.ofMembers [("key", toJson a), ("value", toJson b)] :: pairsToJson ps

/-- The member for a branch, if there is one. -/
def branchToJson (name : String) : Option Node → List (String × Json)
  | none => []
  | some a => [(name, toJson a)]

end

/-! ## Records -/

/-- The names of all kinds. -/
def kinds : List String :=
  ["Numeric", "String", "Boolean", "Null", "Raw", "RegExp", "Identifier", "UnaryExpression",
   "BinaryExpression", "AssignExpression", "CallExpression", "MemberExpression",
   "ObjectExpression", "ArrayExpression", "TemplateLiteral", "Program", "BlockStatement",
   "IfStatement", "Components"]

/-- The names of the parts of a kind, in the order in which a list gives them.  The members of a
description of components are not parts. -/
def partNames? : String → Option (List String)
  | "Numeric" | "String" | "Boolean" | "Raw" => some ["value"]
  | "Null" => some []
  | "RegExp" => some ["pattern", "flags"]
  | "Identifier" => some ["name"]
  | "UnaryExpression" => some ["operator", "argument"]
  | "BinaryExpression" => some ["operator", "left", "right"]
  | "AssignExpression" => some ["left", "right"]
  | "CallExpression" => some ["callee", "arguments"]
  | "MemberExpression" => some ["object", "property"]
  | "ObjectExpression" => some ["properties"]
  | "ArrayExpression" => some ["elements"]
  | "TemplateLiteral" => some ["quasis", "expressions"]
  | "Program" | "BlockStatement" => some ["body"]
  | "IfStatement" => some ["test", "consequent", "alternate"]
  | _ => none

/-- The kind that a tag names; by number only inside another node. -/
def kindOf? (nested : Bool) : Json → Option String
  | .string s => some s
  | .int n => if nested ∧ 0 ≤ n then kinds[n.toNat]? else none
  | _ => none

/-- Members of a JSON value.  Each is smaller than the value, so that a reader can descend into
it. -/
structure Record (j : Json) where
  /-- The members with their names. -/
  members : List (String × Json)
  /-- A member is smaller than the whole. -/
  smaller : ∀ m ∈ members, sizeOf m.2 < sizeOf j

/-- A part, with the fact that it is smaller than its record. -/
def Record.part? {j : Json} (r : Record j) (name : String) :
    Option { x : Json // sizeOf x < sizeOf j } :=
  match h : Fields.lookup? name r.members with
  | some x => some ⟨x, r.smaller _ (Fields.mem_of_lookup? h)⟩
  | none => none

/-- A member of an object is smaller than the object. -/
theorem sizeOf_lt_of_mem {fields : List (String × Json)} {m : String × Json} (h : m ∈ fields) :
    sizeOf m.2 < sizeOf (Json.object fields) := by
  have := List.sizeOf_lt_of_mem h
  obtain ⟨name, x⟩ := m
  simp only [Prod.mk.sizeOf_spec] at this
  simp only [Json.object.sizeOf_spec]
  omega

/-- An item of a list is smaller than the list. -/
theorem sizeOf_lt_of_mem_array {items : List Json} {x : Json} (h : x ∈ items) :
    sizeOf x < sizeOf (Json.array items) := by
  have := List.sizeOf_lt_of_mem h
  simp only [Json.array.sizeOf_spec]
  omega

/-- An item of a list is smaller than the list, whatever name it is given. -/
theorem sizeOf_lt_of_mem_zip {names : List String} {items : List Json} {m : String × Json}
    (h : m ∈ names.zip items) : sizeOf m.2 < sizeOf (Json.array items) :=
  sizeOf_lt_of_mem_array (List.of_mem_zip h).2

/-- The record that is stored in a JSON value: an object, or a list of at most as many items as
there are names. -/
def record? (names : List String) : (j : Json) → Option (Record j)
  | .object fields => some ⟨fields, fun _ h => sizeOf_lt_of_mem h⟩
  | .array items =>
    if items.length ≤ names.length then some ⟨names.zip items, fun _ h => sizeOf_lt_of_mem_zip h⟩
    else none
  | _ => none

/-- A record with a kind. -/
structure Stored (j : Json) extends Record j where
  /-- The kind. -/
  kind : String

/-- The kind and the members of a node that is stored in a JSON value. -/
def stored? (nested : Bool) : (j : Json) → Option (Stored j)
  | .object fields => do
    let kind ← Fields.lookup? "type" fields >>= kindOf? nested
    pure ⟨⟨fields, fun _ h => sizeOf_lt_of_mem h⟩, kind⟩
  | .array (tag :: items) => do
    let kind ← kindOf? nested tag
    let names ← partNames? kind
    if items.length ≤ names.length then
      pure ⟨⟨names.zip items, fun _ h => by
        have := sizeOf_lt_of_mem_zip h
        simp only [Json.array.sizeOf_spec, List.cons.sizeOf_spec] at this ⊢
        omega⟩, kind⟩
    else none
  | _ => none

/-! ## Reading the parts -/

/-- A stored number; whole numbers are rounded to a double. -/
def readNumber? : Json → Option Float
  | .float x => some x
  | .int n => some (Number.ofInt n)
  | _ => none

/-- A stored text. -/
def readString? : Json → Option String
  | .string s => some s
  | _ => none

/-- A stored truth value. -/
def readBool? : Json → Option Bool
  | .bool b => some b
  | _ => none

/-- The spelling of a stored operator. -/
def readSpelling? : Json → Option String
  | .string s => some s
  | .object [(s, .null)] => some s
  | .object [(s, .object [])] => some s
  | _ => none

/-- A stored piece of the text of a template; only its value is read. -/
def readQuasi? (j : Json) : Option String := do
  let r ← record? ["value"] j
  Fields.lookup? "value" r.members >>= readString?

/-- The stored pieces of the text of a template. -/
def readQuasis? : Json → Option (List String)
  | .array items => items.mapM readQuasi?
  | _ => none

/-! ## Reading -/

/-- The parts of a node, read by name. -/
structure Parts where
  /-- The members of the node. -/
  members : List (String × Json)
  /-- A part that is a node. -/
  node : String → Option Node
  /-- A part that is a list of nodes. -/
  nodes : String → Option (List Node)
  /-- A part that is a list of entries of an object literal. -/
  entries : String → Option (List (Node × Node))
  /-- A part that may be missing. -/
  branch : String → Option (Option Node)

/-- A part that is not a node. -/
def Parts.data (part : Parts) (name : String) (read : Json → Option α) : Option α :=
  Fields.lookup? name part.members >>= read

/-- The node of a kind with the given parts. -/
def assemble? (kind : String) (part : Parts) : Option Node := do
  match kind with
  | "Numeric" => return number (← part.data "value" readNumber?)
  | "String" => return string (← part.data "value" readString?)
  | "Boolean" => return boolean (← part.data "value" readBool?)
  | "Null" => return null
  | "Raw" => return raw (← part.data "value" some)
  | "RegExp" =>
    return regexp (← part.data "pattern" readString?) (← part.data "flags" readString?)
  | "Identifier" => return identifier (← part.data "name" readString?)
  | "UnaryExpression" =>
    return unary (← part.data "operator" (readSpelling? · >>= UnaryOp.ofSpelling?))
      (← part.node "argument")
  | "BinaryExpression" =>
    return binary (← part.data "operator" (readSpelling? · >>= BinaryOp.ofSpelling?))
      (← part.node "left") (← part.node "right")
  | "AssignExpression" => return assign (← part.node "left") (← part.node "right")
  | "CallExpression" => return call (← part.node "callee") (← part.nodes "arguments")
  | "MemberExpression" => return member (← part.node "object") (← part.node "property")
  | "ObjectExpression" => return object (← part.entries "properties")
  | "ArrayExpression" => return array (← part.nodes "elements")
  | "TemplateLiteral" =>
    return template (← part.data "quasis" readQuasis?) (← part.nodes "expressions")
  | "Program" => return program (← part.nodes "body")
  | "BlockStatement" => return block (← part.nodes "body")
  | "IfStatement" =>
    return conditional (← part.node "test") (← part.branch "consequent") (← part.branch "alternate")
  -- Whatever stands beside the kind is kept.
  | "Components" => return components (Fields.erase "type" part.members)
  | _ => none

mutual

/-- The node that is stored in a JSON value; `nested` says whether it is inside another node. -/
def ofJson? (nested : Bool) (j : Json) : Option Node := do
  let s ← stored? nested j
  assemble? s.kind
    { members := s.members
      node := fun name => s.part? name >>= fun ⟨x, _⟩ => ofJson? true x
      nodes := fun name => s.part? name >>= fun ⟨x, _⟩ => listOfJson? x
      entries := fun name => s.part? name >>= fun ⟨x, _⟩ => pairsOfJson? x
      branch := fun name => (s.part? name).elim (some none) fun ⟨x, _⟩ => branchOfJson? x }
termination_by (sizeOf j, 0)

/-- The branch of a conditional; `null` counts as missing. -/
def branchOfJson? : Json → Option (Option Node)
  | .null => some none
  | j => some <$> ofJson? true j
termination_by j => (sizeOf j, 1)

/-- The nodes that are stored in a list. -/
def listOfJson? : Json → Option (List Node)
  | .array items => itemsOfJson? items
  | _ => none
termination_by j => (sizeOf j, 0)

/-- The nodes that are stored in the items of a list. -/
def itemsOfJson? : List Json → Option (List Node)
  | [] => some []
  | j :: rest => return (← ofJson? true j) :: (← itemsOfJson? rest)
termination_by items => (sizeOf items, 0)

/-- The entries of an object literal that are stored in a list. -/
def pairsOfJson? : Json → Option (List (Node × Node))
  | .array items => entriesOfJson? items
  | _ => none
termination_by j => (sizeOf j, 0)

/-- The entry of an object literal that is stored in a JSON value. -/
def entryOfJson? (j : Json) : Option (Node × Node) := do
  let r ← record? ["key", "value"] j
  let key ← r.part? "key" >>= fun ⟨x, _⟩ => ofJson? true x
  let value ← r.part? "value" >>= fun ⟨x, _⟩ => ofJson? true x
  return (key, value)
termination_by (sizeOf j, 0)

/-- The entries of an object literal that are stored in the items of a list. -/
def entriesOfJson? : List Json → Option (List (Node × Node))
  | [] => some []
  | j :: rest => return (← entryOfJson? j) :: (← entriesOfJson? rest)
termination_by items => (sizeOf items, 0)

end

end Brace.Node
