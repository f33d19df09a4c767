/-
# Reading a pattern

The pieces of a pattern are folded from left to right.  A frame holds what has been read of the
innermost open group; opening a group puts a new frame on top of a stack, closing it turns the
frame into one item of the frame below.  Settings that are changed inside a group hold to its end,
through all its remaining alternatives.
-/
import Brace.Regex.Piece
import Brace.Regex.Size

namespace Brace.Regex

/-! ## Settings -/

/-- The settings under which a piece is read. -/
structure Modes where
  /-- Case does not matter. -/
  insensitive : Bool := false
  /-- The signs for the start and the end stand for those of lines. -/
  multiLine : Bool := false
  /-- A point stands for a line feed too. -/
  dotAll : Bool := false
  deriving DecidableEq, Repr, Inhabited

namespace Modes

/-- The settings with one of them changed. -/
def set (m : Modes) (k : Flag) (on : Bool) : Modes :=
  match k with
  | .insensitive => { m with insensitive := on }
  | .multiLine => { m with multiLine := on }
  | .dotAll => { m with dotAll := on }
  | .swapGreed => m

/-- The settings after several changes. -/
def apply (m : Modes) (changes : List (Flag × Bool)) : Modes :=
  changes.foldl (fun m change => m.set change.1 change.2) m

end Modes

/-! ## Items -/

/-- An expression with the depth to which the pattern nests in it. -/
structure Nested where
  /-- The expression. -/
  regex : Regex
  /-- The number of groups, repetitions, sequences, choices and brackets around the innermost
  piece. -/
  depth : Nat

namespace Nested

/-- An expression without a level of its own. -/
def leaf (r : Regex) : Nested := ⟨r, 0⟩

/-- Several expressions combined to one; more than one of them make a level. -/
def combine (f : List Regex → Regex) (parts : List Nested) : Nested :=
  let deepest := parts.foldr (fun a n => max a.depth n) 0
  ⟨f (parts.map (·.regex)), if 1 < parts.length then deepest + 1 else deepest⟩

end Nested

/-- What stands in a branch of a group. -/
inductive Item where
  /-- An expression. -/
  | part (a : Nested)
  /-- A change of the settings, which matches the empty text and cannot be repeated. -/
  | settings

/-- The expression that an item stands for. -/
def Item.nested : Item → Nested
  | part a => a
  | settings => .leaf .empty

/-- What has been read of a group that is still open. -/
structure Frame where
  /-- The kind of the group. -/
  kind : GroupKind
  /-- The settings around the group. -/
  outside : Modes
  /-- The complete branches, the last one first. -/
  branches : List Nested
  /-- The items of the branch under way, the last one first. -/
  items : List Item

namespace Frame

/-- A group that has just been opened. -/
def opened (kind : GroupKind) (outside : Modes) : Frame := ⟨kind, outside, [], []⟩

/-- A frame with one more item. -/
def push (f : Frame) (i : Item) : Frame := { f with items := i :: f.items }

/-- The branch under way. -/
def branch (f : Frame) : Nested := .combine seqs (f.items.reverse.map Item.nested)

/-- A frame in which the next branch begins. -/
def nextBranch (f : Frame) : Frame := { f with branches := f.branch :: f.branches, items := [] }

/-- The branches of a whole group. -/
def content (f : Frame) : Nested := .combine alts (f.branch :: f.branches).reverse

/-- A whole group as one expression. -/
def group (f : Frame) : Nested :=
  let a := f.content
  match f.kind with
  | .captured _ => ⟨.captured a.regex, a.depth + 1⟩
  | .plain _ => ⟨a.regex, a.depth + 1⟩

end Frame

/-! ## Folding the pieces -/

/-- What has been read of a pattern. -/
structure Reading where
  /-- The settings for the next piece. -/
  modes : Modes
  /-- The names of the groups so far. -/
  names : List String
  /-- The innermost open group. -/
  inner : Frame
  /-- The groups around it, the innermost one first. -/
  outer : List Frame

namespace Reading

/-- Nothing has been read yet. -/
def start (modes : Modes) : Reading := ⟨modes, [], .opened (.captured none) modes, []⟩

/-- A reading with one more item. -/
def push (s : Reading) (i : Item) : Reading := { s with inner := s.inner.push i }

/-- A reading with one more expression that has no level of its own. -/
def pushLeaf (s : Reading) (r : Regex) : Reading := s.push (.part (.leaf r))

/-- Repeats the last item.  There must be one, and it must not be a change of the settings. -/
def repeatLast (s : Reading) (b : Bounds) : Option Reading :=
  match s.inner.items with
  | .part a :: items =>
    let again : Nested := ⟨.repeated a.regex b.min b.max, a.depth + 1⟩
    some { s with inner := { s.inner with items := .part again :: items } }
  | _ => none

/-- Closes the innermost group, which must not be the pattern itself. -/
def close (s : Reading) : Option Reading :=
  match s.outer with
  | [] => none
  | f :: outer =>
    let group : Item := .part s.inner.group
    some { s with modes := s.inner.outside, inner := f.push group, outer := outer }

/-- Opens a group.  No two groups may have the same name. -/
def openGroup (s : Reading) (k : GroupKind) : Option Reading :=
  let inside : Reading := { s with inner := .opened k s.modes, outer := s.inner :: s.outer }
  match k with
  | .plain changes => some { inside with modes := s.modes.apply changes }
  | .captured none => some inside
  | .captured (some name) =>
    if s.names.contains name then none else some { inside with names := name :: s.names }

/-- Reads one piece. -/
def step (s : Reading) : Piece → Option Reading
  | .char c => some (s.pushLeaf (.char (.foldIf s.modes.insensitive (.single c))))
  | .dot => some (s.pushLeaf (.char (if s.modes.dotAll then .all else .compl (.single '\n'))))
  | .caret => some (s.pushLeaf (.assertion (if s.modes.multiLine then .lineStart else .textStart)))
  | .dollar => some (s.pushLeaf (.assertion (if s.modes.multiLine then .lineEnd else .textEnd)))
  | .named negated k => some (s.pushLeaf (.char (.negate negated (.named k))))
  | .bracketed a => some (s.push (.part ⟨.char (a.resolve s.modes.insensitive), a.depth⟩))
  | .assertion a => some (s.pushLeaf (.assertion a))
  | .repetition b => s.repeatLast b
  | .bar => some { s with inner := s.inner.nextBranch }
  | .opening k => s.openGroup k
  | .closing => s.close
  | .settings changes => some { s.push .settings with modes := s.modes.apply changes }

/-- What a pattern says when all of it has been read; every group must be closed. -/
def finish? (s : Reading) : Option Nested :=
  if s.outer.isEmpty then some s.inner.content else none

end Reading

/-- The deepest nesting of a pattern. -/
def depthMax : Nat := 250

/-- Reads a pattern; `none` means that it is refused.  It must keep to the syntax, and neither nest
too deeply nor need too large an automaton. -/
def read? (modes : Modes) (pattern : String) : Option Regex := do
  let ps ← pieces pattern.toList
  let s ← ps.foldlM Reading.step (.start modes)
  let a ← s.finish?
  if depthMax < a.depth ∨ a.regex.isTooLarge then none else pure a.regex

end Brace.Regex
