/-
# The source text of a node

`Node.source` writes a node as a source text.  Operations on two operands are put into
parentheses, so that no binding strengths are needed to read them back.
-/
import Brace.Json.Printer
import Brace.Node.Basic

namespace Brace.Node

/-! ## Pieces of text -/

/-- A text in double quotes; quotes and backslashes get a backslash in front. -/
def quote (s : String) : String :=
  String.ofList ('"' :: (s.toList.flatMap fun c =>
    if c = '"' ∨ c = '\\' then ['\\', c] else [c]) ++ ['"'])

/-- A piece of the text of a template; braces and back-quotes get a backslash in front. -/
def quasi (s : String) : String :=
  String.ofList (s.toList.flatMap fun c =>
    if c = '\x7b' ∨ c = '\x60' then ['\\', c] else [c])

/-- A text in parentheses. -/
def parenthesized (s : String) : String := "(" ++ s ++ ")"

/-- A text in braces. -/
def braced (s : String) : String := "\x7b" ++ s ++ "\x7d"

/-- The operator in front of its operand; only the word needs a blank behind it. -/
def unarySource (op : UnaryOp) (argument : String) : String :=
  match op with
  | .not => "not " ++ argument
  | op => op.spelling ++ argument

/-- The operand of a call or an index; an operation in front of it would otherwise take in the call
or the index. -/
def operandSource (n : Node) (text : String) : String :=
  if n.isUnary then parenthesized text else text

/-- A branch of a conditional; only a block may begin with a brace. -/
def branchSource (n : Node) (text : String) : String :=
  if text.toList.head? = some '\x7b' ∧ n.isBlock = false then parenthesized text else text

/-- An expression inside a template; a block has its own braces. -/
def interpolationSource (n : Node) (text : String) : String :=
  if n.isBlock then text else braced text

/-! ## Nodes -/

mutual

/-- The source text of a node. -/
def source : Node → String
  | number x => Number.text x
  | string s => quote s
  | boolean b => toString b
  | null => "null"
  | raw j => j.compact
  | regexp pattern flags => "/" ++ pattern ++ "/" ++ flags
  | identifier name => name
  | unary op a => unarySource op (source a)
  | binary op a b => parenthesized (source a ++ " " ++ op.spelling ++ " " ++ source b)
  | assign a b => parenthesized (source a ++ " = " ++ source b)
  | call f as =>
    operandSource f (source f) ++ parenthesized (String.intercalate ", " (sources as))
  | member a b => operandSource a (source a) ++ "[" ++ source b ++ "]"
  | object ps => braced (String.intercalate ", " (pairSources ps))
  | array as => "[" ++ String.intercalate ", " (sources as) ++ "]"
  | template quasis as => "`" ++ templateSource quasis as ++ "`"
  | program as => String.intercalate "; " (sources as)
  | block as => braced (String.intercalate "; " (sources as))
  | conditional a b c =>
    parenthesized ("if " ++ source a ++ branchOf " then " b ++ branchOf " else " c)
  | components _ => "<components>"

/-- The source texts of nodes. -/
def sources : List Node → List String
  | [] => []
  | a :: as => source a :: sources as

/-- The source texts of the entries of an object. -/
def pairSources : List (Node × Node) → List String
  | [] => []
  | (a, b) :: ps => (source a ++ ": " ++ source b) :: pairSources ps

/-- The pieces of a template with its expressions between them, as long as there are pieces. -/
def templateSource : List String → List Node → String
  | [], _ => ""
  -- More pieces than there should be are written one behind the other.
  | quasis, [] => String.join (quasis.map quasi)
  | q :: quasis, a :: as =>
    quasi q ++ interpolationSource a (source a) ++ templateSource quasis as

/-- A branch behind its word, or nothing if it is missing. -/
def branchOf (word : String) : Option Node → String
  | none => ""
  | some a => word ++ branchSource a (source a)

end

/-! ## The characters of a text -/

theorem toList_parenthesized (s : String) :
    (parenthesized s).toList = '(' :: (s.toList ++ [')']) := by
  simp [parenthesized]

theorem toList_braced (s : String) : (braced s).toList = '\x7b' :: (s.toList ++ ['\x7d']) := by
  simp [braced]

theorem sources_eq_map (as : List Node) : sources as = as.map source := by
  induction as with
  | nil => rfl
  | cons a as ih => rw [sources, ih, List.map_cons]

theorem pairSources_eq_map (ps : List (Node × Node)) :
    pairSources ps = ps.map fun p => source p.1 ++ ": " ++ source p.2 := by
  induction ps with
  | nil => rfl
  | cons p ps ih => rw [pairSources, ih, List.map_cons]

/-- The characters of source texts with a separator between them. -/
theorem toList_intercalate_sources (separator : String) (as : List Node) :
    (String.intercalate separator (sources as)).toList =
      separator.toList.intercalate (as.map fun a => a.source.toList) := by
  rw [String.toList_intercalate, sources_eq_map, List.map_map]
  rfl

theorem toList_source_template (quasis : List String) (as : List Node) :
    (template quasis as).source.toList =
      '\x60' :: ((templateSource quasis as).toList ++ ['\x60']) := by
  simp [source]

theorem toList_source_call (a : Node) (as : List Node) :
    (call a as).source.toList = (operandSource a a.source).toList ++
      '(' :: ([',', ' '].intercalate (as.map fun a => a.source.toList) ++ [')']) := by
  rw [source, String.toList_append, toList_parenthesized, toList_intercalate_sources]
  rfl

theorem toList_source_array (as : List Node) :
    (array as).source.toList =
      '[' :: ([',', ' '].intercalate (as.map fun a => a.source.toList) ++ [']']) := by
  rw [source, String.toList_append, String.toList_append, toList_intercalate_sources]
  rfl

theorem toList_source_object (ps : List (Node × Node)) :
    (object ps).source.toList = '\x7b' :: ([',', ' '].intercalate
      (ps.map fun p => (p.1.source ++ ": " ++ p.2.source).toList) ++ ['\x7d']) := by
  rw [source, toList_braced, String.toList_intercalate, pairSources_eq_map, List.map_map]
  rfl

end Brace.Node
