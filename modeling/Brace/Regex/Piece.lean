/-
# The pieces of a pattern

A pattern is cut into pieces: single characters and classes, assertions, repetition operators,
bars, and the brackets of groups.  A scanning function answers what it read together with the
number of characters that it took; `none` means that the pattern is refused.  Classes of Unicode
properties and the settings `x`, `u` and `R` have no piece and are refused.
-/
import Brace.Number.Radix
import Brace.Regex.Basic
import Brace.Text.Alphabetic
import Brace.Text.Numeric

namespace Brace.Regex

/-! ## Numbers -/

/-- The character with the given hexadecimal number, which must have a digit. -/
def hexChar? (digits : List Char) : Option Char := do
  if digits.isEmpty then none
  let n ← Number.Radix.hexadecimal.natOf? digits
  if h : n.isValidChar then some (Char.ofNatAux n h) else none

/-- Reads the number behind `\x`, `\u` or `\U`: a fixed count of digits, or any number of digits in
braces. -/
def scanHex (width : Nat) : List Char → Option (Char × Nat)
  | '\x7b' :: rest => do
    let digits := rest.takeWhile (· != '\x7d')
    if digits.length = rest.length then none
    let c ← hexChar? digits
    pure (c, digits.length + 2)
  | rest => do
    if rest.length < width then none
    let c ← hexChar? (rest.take width)
    pure (c, width)

/-- The largest bound of a repetition. -/
def boundMax : Nat := UInt32.size - 1

/-- Reads a bound of a repetition with white space around it. -/
def scanBound (cs : List Char) : Option (Nat × Nat) :=
  let blanks := (cs.takeWhile Text.isWhiteSpace).length
  let digits := (cs.drop blanks).takeWhile Char.isDigit
  let more := ((cs.drop (blanks + digits.length)).takeWhile Text.isWhiteSpace).length
  let n := Nat.ofDigitChars 10 digits 0
  if digits.isEmpty ∨ boundMax < n then none else some (n, blanks + digits.length + more)

/-- How often something is repeated. -/
structure Bounds where
  /-- The least number of times. -/
  min : Nat
  /-- The largest number of times, if there is one. -/
  max : Option Nat
  deriving DecidableEq, Repr

/-- Reads the bounds of a repetition behind their opening brace. -/
def scanBounds (cs : List Char) : Option (Bounds × Nat) := do
  let (min, n) ← scanBound cs
  match cs.drop n with
  | '\x7d' :: _ => pure (⟨min, some min⟩, n + 1)
  | ',' :: '\x7d' :: _ => pure (⟨min, none⟩, n + 2)
  | ',' :: rest =>
    let (max, m) ← scanBound rest
    if (rest.drop m).head? = some '\x7d' ∧ min ≤ max then pure (⟨min, some max⟩, n + m + 2)
    else none
  | _ => none

/-! ## Escapes -/

/-- What a backslash with the characters behind it stands for. -/
inductive Escape where
  /-- A character. -/
  | char (c : Char)
  /-- A named class or its complement. -/
  | named (negated : Bool) (k : NamedClass)
  /-- An assertion. -/
  | assertion (a : Assertion)
  deriving DecidableEq, Repr

/-- Whether a backslash in front of a character stands for the character: ASCII characters other
than letters, digits and angle brackets. -/
def isEscapable (c : Char) : Bool := c.toNat < 128 && !c.isAlphanum && c != '<' && c != '>'

/-- Reads the kind of a word boundary in braces.  Something in braces that does not begin with a
letter or a hyphen is left to be read as a repetition. -/
def scanBoundary : List Char → Option (Assertion × Nat)
  | '\x7b' :: rest =>
    let isNameChar (c : Char) : Bool := c.isAlpha || c == '-'
    let name := rest.takeWhile isNameChar
    if rest.isEmpty then none
    else if name.isEmpty then some (.wordBoundary, 0)
    else if (rest.drop name.length).head? ≠ some '\x7d' then none
    else
      let n := name.length + 2
      match String.ofList name with
      | "start" => some (.wordStart, n)
      | "end" => some (.wordEnd, n)
      | "start-half" => some (.wordStartHalf, n)
      | "end-half" => some (.wordEndHalf, n)
      | _ => none
  | _ => some (.wordBoundary, 0)

/-- Reads what stands behind a backslash. -/
def scanEscape : List Char → Option (Escape × Nat)
  | [] => none
  | c :: rest =>
    match c with
    | 'x' => (scanHex 2 rest).map fun (d, n) => (.char d, n + 1)
    | 'u' => (scanHex 4 rest).map fun (d, n) => (.char d, n + 1)
    | 'U' => (scanHex 8 rest).map fun (d, n) => (.char d, n + 1)
    | 'd' => some (.named false .digit, 1)
    | 'D' => some (.named true .digit, 1)
    | 's' => some (.named false .space, 1)
    | 'S' => some (.named true .space, 1)
    | 'w' => some (.named false .word, 1)
    | 'W' => some (.named true .word, 1)
    | 'a' => some (.char (Char.ofNat 7), 1)
    | 't' => some (.char '\t', 1)
    | 'n' => some (.char '\n', 1)
    | 'v' => some (.char (Char.ofNat 11), 1)
    | 'f' => some (.char (Char.ofNat 12), 1)
    | 'r' => some (.char '\r', 1)
    | 'A' => some (.assertion .textStart, 1)
    | 'z' => some (.assertion .textEnd, 1)
    | 'b' => (scanBoundary rest).map fun (a, n) => (.assertion a, n + 1)
    | 'B' => some (.assertion .notWordBoundary, 1)
    | '<' => some (.assertion .wordStart, 1)
    | '>' => some (.assertion .wordEnd, 1)
    -- A letter without a meaning may not be escaped, so that it is free for one.
    | c => if isEscapable c then some (.char c, 1) else none

/-! ## Bracketed classes -/

/-- The operations on classes that are written between them. -/
inductive ClassOp where
  /-- The characters of both. -/
  | inter
  /-- The characters of the first but not of the second. -/
  | diff
  /-- The characters of exactly one. -/
  | symmDiff
  deriving DecidableEq, Repr

/-- A bracketed class as it is written. -/
inductive ClassTree where
  /-- All characters from the first to the last one. -/
  | range (first last : Char)
  /-- A named class or its complement. -/
  | named (negated : Bool) (k : NamedClass)
  /-- A named class of ASCII characters or its complement. -/
  | ascii (negated : Bool) (a : CharClass)
  /-- The characters of all parts. -/
  | union (parts : List ClassTree)
  /-- An operation on two classes. -/
  | op (o : ClassOp) (a b : ClassTree)
  /-- A class in brackets or its complement. -/
  | bracket (negated : Bool) (a : ClassTree)
  deriving Repr, Inhabited

namespace ClassTree

mutual

/-- The set that a class stands for.  Up to case, the characters of a bracket and of the operands of
an operation are completed before anything is done with them. -/
def resolve (insensitive : Bool) : ClassTree → CharClass
  | range first last => .range first last
  | named negated k => .negate negated (.named k)
  | ascii negated a => .negate negated (.foldIf insensitive a)
  | union parts => .unions (resolveAll insensitive parts)
  | op o a b =>
    let a := CharClass.foldIf insensitive (a.resolve insensitive)
    let b := CharClass.foldIf insensitive (b.resolve insensitive)
    match o with
    | .inter => .inter a b
    | .diff => .diff a b
    | .symmDiff => .union (.diff a b) (.diff b a)
  | bracket negated a => .negate negated (.foldIf insensitive (a.resolve insensitive))

/-- The sets that classes stand for. -/
def resolveAll (insensitive : Bool) : List ClassTree → List CharClass
  | [] => []
  | a :: as => a.resolve insensitive :: resolveAll insensitive as

end

mutual

/-- How deeply a class is nested; a union counts if it has several parts. -/
def depth : ClassTree → Nat
  | range .. | named .. | ascii .. | union [] => 0
  | union parts => depthAll parts + 1
  | op _ a b => max a.depth b.depth + 1
  | bracket _ a => a.depth + 1

/-- The largest depth of several classes. -/
def depthAll : List ClassTree → Nat
  | [] => 0
  | a :: as => max a.depth (depthAll as)

end

/-- The union of parts, the last one first. -/
def ofParts : List ClassTree → ClassTree
  | [a] => a
  | parts => union parts.reverse

end ClassTree

/-- A bracket that is still open. -/
structure ClassFrame where
  /-- Whether the complement is meant. -/
  negated : Bool
  /-- The operand on the left of the operation that is under way. -/
  left : Option (ClassOp × ClassTree)
  /-- The parts read so far behind it, the last one first. -/
  parts : List ClassTree
  deriving Repr, Inhabited

namespace ClassFrame

/-- A bracket with one more part. -/
def push (f : ClassFrame) (a : ClassTree) : ClassFrame := { f with parts := a :: f.parts }

/-- What a bracket holds. -/
def content (f : ClassFrame) : ClassTree :=
  let right := ClassTree.ofParts f.parts
  match f.left with
  | none => right
  | some (o, left) => .op o left right

/-- A bracket in which an operation has been read; what stands in front is its left operand. -/
def operate (f : ClassFrame) (o : ClassOp) : ClassFrame :=
  { f with left := some (o, f.content), parts := [] }

end ClassFrame

/-- Reads the opening of a class behind its bracket: a caret, and hyphens or a closing bracket that
stand for themselves. -/
def scanClassStart (cs : List Char) : Option (ClassFrame × Nat) :=
  let (negated, n) : Bool × Nat := if cs.head? = some '^' then (true, 1) else (false, 0)
  let hyphens := ((cs.drop n).takeWhile (· == '-')).length
  let frame : ClassFrame := ⟨negated, none, List.replicate hyphens (.range '-' '-')⟩
  match cs.drop (n + hyphens) with
  | [] => none
  | c :: rest =>
    if hyphens = 0 ∧ c = ']' then
      if rest.isEmpty then none else some (frame.push (.range ']' ']'), n + 1)
    else some (frame, n + hyphens)

/-- Reads the name of a class of ASCII characters behind its bracket. -/
def scanAsciiClass? : List Char → Option (ClassTree × Nat)
  | ':' :: rest => do
    let (negated, rest) : Bool × List Char :=
      match rest with
      | '^' :: rest => (true, rest)
      | rest => (false, rest)
    let name := rest.takeWhile (· != ':')
    if (rest.drop (name.length + 1)).head? ≠ some ']' then none
    let a ← asciiClass? (String.ofList name)
    pure (.ascii negated a, 1 + negated.toNat + name.length + 2)
  | _ => none

/-- Reads a character or an escape inside a class. -/
def scanClassAtom : List Char → Option (Escape × Nat)
  | [] => none
  | '\\' :: rest => (scanEscape rest).map fun (e, n) => (e, n + 1)
  | c :: _ => some (.char c, 1)

/-- Reads a character, a range or a named class inside a class. -/
def scanClassPart (cs : List Char) : Option (ClassTree × Nat) := do
  let (first, n) ← scanClassAtom cs
  match cs.drop n with
  | [] => none
  | '-' :: rest =>
    if rest.head? = some ']' ∨ rest.head? = some '-' then single first n
    else
      let (last, m) ← scanClassAtom rest
      match first, last with
      | .char a, .char b => if a ≤ b then pure (.range a b, n + 1 + m) else none
      | _, _ => none
  | _ => single first n
where
  /-- A part that is no range. -/
  single (e : Escape) (n : Nat) : Option (ClassTree × Nat) :=
    match e with
    | .char c => some (.range c c, n)
    | .named negated k => some (.named negated k, n)
    | .assertion _ => none

/-- What a step inside a class has read. -/
inductive ClassStep where
  /-- The bracket of a class inside. -/
  | opened (f : ClassFrame)
  /-- A closing bracket. -/
  | closed
  /-- An operation. -/
  | operation (o : ClassOp)
  /-- A part. -/
  | part (a : ClassTree)

/-- Reads one step inside a class. -/
def scanClassStep : List Char → Option (ClassStep × Nat)
  | [] => none
  | '[' :: rest =>
    match scanAsciiClass? rest with
    | some (a, n) => some (.part a, n + 1)
    | none => (scanClassStart rest).map fun (f, n) => (.opened f, n + 1)
  | ']' :: _ => some (.closed, 1)
  | '&' :: '&' :: _ => some (.operation .inter, 2)
  | '-' :: '-' :: _ => some (.operation .diff, 2)
  | '~' :: '~' :: _ => some (.operation .symmDiff, 2)
  | cs => (scanClassPart cs).map fun (a, n) => (.part a, n)

/-- Reads what is left of a class, with `f` the innermost open bracket and `outer` those around it;
`taken` counts the characters taken so far. -/
def scanClassRest (f : ClassFrame) (outer : List ClassFrame) (taken : Nat) (cs : List Char) :
    Option (ClassTree × Nat) :=
  match cs, scanClassStep cs with
  | [], _ | _, none => none
  | _ :: rest, some (step, n) =>
    let n := n - 1
    match step with
    | .opened g => scanClassRest g (f :: outer) (taken + n + 1) (rest.drop n)
    | .closed =>
      let a := ClassTree.bracket f.negated f.content
      match outer with
      | [] => some (a, taken + n + 1)
      | g :: outer => scanClassRest (g.push a) outer (taken + n + 1) (rest.drop n)
    | .operation o => scanClassRest (f.operate o) outer (taken + n + 1) (rest.drop n)
    | .part a => scanClassRest (f.push a) outer (taken + n + 1) (rest.drop n)
termination_by cs.length
decreasing_by
  all_goals
    simp only [List.length_drop, List.length_cons]
    omega

/-- Reads a class behind its opening bracket. -/
def scanClass (cs : List Char) : Option (ClassTree × Nat) := do
  let (f, n) ← scanClassStart cs
  scanClassRest f [] n (cs.drop n)

/-! ## Groups -/

/-- The settings that can be changed inside a pattern. -/
inductive Flag where
  /-- Case does not matter. -/
  | insensitive
  /-- The assertions of the ends hold at the ends of lines. -/
  | multiLine
  /-- A point stands for a line feed too. -/
  | dotAll
  /-- Repetitions take as little as possible, which does not matter for whether there is a match. -/
  | swapGreed
  deriving DecidableEq, Repr

/-- The setting that a letter names. -/
def Flag.ofChar? : Char → Option Flag
  | 'i' => some insensitive
  | 'm' => some multiLine
  | 's' => some dotAll
  | 'U' => some swapGreed
  | _ => none

/-- Reads letters of settings, up to the character that ends them; those behind a hyphen are
switched off.  No letter and no second hyphen may be repeated, and a hyphen may not stand last. -/
def scanFlags (negative : Bool) (seen : List (Flag × Bool)) :
    List Char → Option (List (Flag × Bool) × List Char)
  | [] => none
  | c :: cs =>
    if c = ':' ∨ c = ')' then
      if negative ∧ seen.all (·.2) then none else some (seen.reverse, c :: cs)
    else if c = '-' then if negative then none else scanFlags true seen cs
    else
      match Flag.ofChar? c with
      | none => none
      | some k =>
        if seen.any (·.1 == k) then none else scanFlags negative ((k, !negative) :: seen) cs

/-- The kinds of groups. -/
inductive GroupKind where
  /-- A group whose match can be asked for, by its name if it has one. -/
  | captured (name : Option String)
  /-- A group that only holds together, with settings of its own. -/
  | plain (flags : List (Flag × Bool))
  deriving DecidableEq, Repr, Inhabited

/-- A piece of a pattern. -/
inductive Piece where
  /-- A single character. -/
  | char (c : Char)
  /-- Any character, but a line feed only if the settings say so. -/
  | dot
  /-- The sign for the start. -/
  | caret
  /-- The sign for the end. -/
  | dollar
  /-- A named class or its complement. -/
  | named (negated : Bool) (k : NamedClass)
  /-- A bracketed class. -/
  | bracketed (a : ClassTree)
  /-- An assertion. -/
  | assertion (a : Assertion)
  /-- A repetition of the piece in front. -/
  | repetition (b : Bounds)
  /-- A bar between alternatives. -/
  | bar
  /-- The opening of a group. -/
  | opening (k : GroupKind)
  /-- The closing of a group. -/
  | closing
  /-- Settings for the rest of the group. -/
  | settings (flags : List (Flag × Bool))
  deriving Repr, Inhabited

/-- Whether the name of a group can begin with a character. -/
def isNameStart (c : Char) : Bool := c == '_' || Text.isAlphabetic c

/-- Whether the name of a group can go on with a character. -/
def isNameChar (c : Char) : Bool :=
  c == '_' || c == '.' || c == '[' || c == ']' || Text.isAlphabetic c || Text.isNumeric c

/-- Reads the name of a group and its closing angle bracket. -/
def scanGroupName (cs : List Char) : Option (String × Nat) :=
  let name := cs.takeWhile (· != '>')
  match name with
  | [] => none
  | c :: more =>
    if name.length < cs.length ∧ isNameStart c ∧ more.all isNameChar then
      some (String.ofList name, name.length + 1)
    else none

/-- Reads the opening of a group behind its parenthesis.  Conditions on what stands around are
refused. -/
def scanGroup : List Char → Option (Piece × Nat)
  | '?' :: 'P' :: '<' :: rest =>
    (scanGroupName rest).map fun (name, n) => (.opening (.captured (some name)), n + 3)
  | '?' :: '<' :: rest =>
    if rest.head? = some '=' ∨ rest.head? = some '!' then none
    else (scanGroupName rest).map fun (name, n) => (.opening (.captured (some name)), n + 2)
  | '?' :: rest => do
    let (flags, left) ← scanFlags false [] rest
    let n := rest.length - left.length + 2
    if left.head? = some ':' then pure (.opening (.plain flags), n)
    else if flags.isEmpty then none
    else pure (.settings flags, n)
  | _ => some (.opening (.captured none), 0)

/-! ## Cutting -/

/-- Takes a question mark that may stand behind a repetition. -/
def scanLazy (b : Bounds) (n : Nat) (cs : List Char) : Piece × Nat :=
  (.repetition b, if (cs.drop n).head? = some '?' then n + 1 else n)

/-- Reads the piece that begins with `c`, followed by `rest`; the count is that of the characters
taken from `rest`. -/
def scanPiece (c : Char) (rest : List Char) : Option (Piece × Nat) :=
  match c with
  | '(' => scanGroup rest
  -- Whether the groups match is not seen here; that is checked when the pieces are nested.
  | ')' => some (.closing, 0)
  | '|' => some (.bar, 0)
  | '[' => (scanClass rest).map fun (a, n) => (.bracketed a, n)
  | '?' => some (scanLazy ⟨0, some 1⟩ 0 rest)
  | '*' => some (scanLazy ⟨0, none⟩ 0 rest)
  | '+' => some (scanLazy ⟨1, none⟩ 0 rest)
  | '\x7b' => (scanBounds rest).map fun (b, n) => scanLazy b n rest
  | '\\' =>
    (scanEscape rest).map fun (e, n) =>
      match e with
      | .char c => (.char c, n)
      | .named negated k => (.named negated k, n)
      | .assertion a => (.assertion a, n)
  | '.' => some (.dot, 0)
  | '^' => some (.caret, 0)
  | '$' => some (.dollar, 0)
  | c => some (.char c, 0)

/-- Cuts a pattern into pieces. -/
def pieces : List Char → Option (List Piece)
  | [] => some []
  | c :: rest =>
    match scanPiece c rest with
    | none => none
    | some (p, n) => (pieces (rest.drop n)).map (p :: ·)
termination_by cs => cs.length
decreasing_by
  simp only [List.length_drop, List.length_cons]
  omega

end Brace.Regex
