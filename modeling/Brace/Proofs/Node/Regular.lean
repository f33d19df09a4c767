/-
# Regular nodes

Not every node is the tree of a source text.  `Regular` says place by place what a whole tree has to
be: names are spelled as names, no slash ends a regular expression early, a template has a piece of
text around each expression, and sequences of statements occur in a few places only.

`Limits` tells two kinds of regular trees apart: those that the parser answers (`Limits.parsed`),
and those that are read back from their own source text (`Limits.printable`), in which every number
is finite and no expression of a template is an empty sequence.
-/
import Brace.Node.Basic
import Brace.Number.Binary
import Brace.Token.Scan

namespace Brace

/-! ## Texts inside nodes -/

/-- The words that are not names. -/
def reservedWords : List String :=
  ["true", "false", "null", "is", "isnt", "and", "or", "not", "match", "if", "then", "else"]

/-- A text is a name: a letter or an underscore, then letters, underscores and digits. -/
structure IsName (s : String) : Prop where
  /-- It is spelled like a name. -/
  spelled : ∃ c cs, s.toList = c :: cs ∧ Scan.isNameStart c = true ∧
    ∀ d ∈ cs, Scan.isNameChar d = true
  /-- It is not reserved. -/
  free : s ∉ reservedWords

/-- The characters of a regular expression: a backslash goes together with the character behind it,
and no slash stands alone. -/
def isPattern : List Char → Bool
  | [] => true
  | ['\\'] => false
  | '\\' :: _ :: cs => isPattern cs
  | c :: cs => c ≠ '/' && isPattern cs

/-- A text is a set of flags: some of the letters for flags, each at most once. -/
structure IsFlags (s : String) : Prop where
  /-- Every character is a flag. -/
  flags : ∀ c ∈ s.toList, Scan.isFlag c = true
  /-- No flag is repeated. -/
  distinct : s.toList.Nodup

/-- A list of characters ends the text of a template, or begins with a character that is special
there. -/
def StopsQuasi (cs : List Char) : Prop :=
  cs = [] ∨ cs.head? = some '\x7b' ∨ cs.head? = some '\x60'

/-- The number of backslashes at the end of a list of characters. -/
def backslashes (cs : List Char) : Nat := (cs.reverse.takeWhile (· = '\\')).length

/-- The characters of a piece of the text of a template: the backslashes in front of a brace, a
back-quote or the end come in pairs. -/
def IsQuasi (cs : List Char) : Prop :=
  ∀ before after, before ++ after = cs → StopsQuasi after → backslashes before % 2 = 0

/-! ## Limits -/

/-- What numbers a tree may have, and how many statements an expression of a template. -/
structure Limits where
  /-- The numbers. -/
  number : Float → Prop
  /-- The lengths of the sequences. -/
  sequence : Nat → Prop

/-- Whether the sign bit of a number is clear. -/
def Number.SignClear (x : Float) : Prop := x.toBits.toNat < Nat.pow 2 63

/-- The limits of the trees that the parser answers. -/
def Limits.parsed : Limits where
  number x := Number.parts x ≠ .nan ∧ Number.SignClear x
  sequence n := n ≠ 1

/-- The limits of the trees that can be read back from their source text. -/
def Limits.printable : Limits where
  number x := Number.isFinite x = true ∧ Number.SignClear x
  sequence n := 2 ≤ n

/-! ## Regular trees -/

/-- The places of a tree. -/
inductive Place where
  /-- Where an expression stands. -/
  | expression
  /-- A branch of a conditional. -/
  | branch
  /-- An expression of a template. -/
  | interpolation
  /-- The top of the tree. -/
  | root
  deriving DecidableEq, Repr

/-- A node is regular at a place. -/
inductive Regular (limits : Limits) : Place → Node → Prop where
  /-- A number within the limits. -/
  | number {x : Float} : limits.number x → Regular limits .expression (.number x)
  /-- A text. -/
  | string (s : String) : Regular limits .expression (.string s)
  /-- A truth value. -/
  | boolean (b : Bool) : Regular limits .expression (.boolean b)
  /-- The literal `null`. -/
  | null : Regular limits .expression .null
  /-- A regular expression. -/
  | regexp {pattern flags : String} :
      isPattern pattern.toList = true → IsFlags flags →
        Regular limits .expression (.regexp pattern flags)
  /-- A variable. -/
  | identifier {name : String} : IsName name → Regular limits .expression (.identifier name)
  /-- An operation on one operand. -/
  | unary {op : UnaryOp} {a : Node} :
      Regular limits .expression a → Regular limits .expression (.unary op a)
  /-- An operation on two operands. -/
  | binary {op : BinaryOp} {a b : Node} :
      Regular limits .expression a → Regular limits .expression b →
        Regular limits .expression (.binary op a b)
  /-- An assignment to a variable. -/
  | assign {a b : Node} :
      a.isIdentifier = true → Regular limits .expression a → Regular limits .expression b →
        Regular limits .expression (.assign a b)
  /-- A call. -/
  | call {a : Node} {as : List Node} :
      Regular limits .expression a → (∀ b ∈ as, Regular limits .expression b) →
        Regular limits .expression (.call a as)
  /-- A member. -/
  | member {a b : Node} :
      Regular limits .expression a → Regular limits .expression b →
        Regular limits .expression (.member a b)
  /-- An object. -/
  | object {ps : List (Node × Node)} :
      (∀ p ∈ ps, p.1.isKey = true) → (∀ p ∈ ps, Regular limits .expression p.1) →
        (∀ p ∈ ps, Regular limits .expression p.2) → Regular limits .expression (.object ps)
  /-- A list. -/
  | array {as : List Node} :
      (∀ a ∈ as, Regular limits .expression a) → Regular limits .expression (.array as)
  /-- A template, with one piece of text more than expressions. -/
  | template {quasis : List String} {as : List Node} :
      quasis.length = as.length + 1 → (∀ q ∈ quasis, IsQuasi q.toList) →
        (∀ a ∈ as, Regular limits .interpolation a) →
          Regular limits .expression (.template quasis as)
  /-- A conditional. -/
  | conditional {a : Node} {b c : Option Node} :
      Regular limits .expression a → (∀ x, b = some x → Regular limits .branch x) →
        (∀ x, c = some x → Regular limits .branch x) →
          Regular limits .expression (.conditional a b c)
  /-- Statements as a branch. -/
  | block {as : List Node} :
      (∀ a ∈ as, Regular limits .expression a) → Regular limits .branch (.block as)
  /-- Statements in a template. -/
  | sequence {as : List Node} :
      limits.sequence as.length → (∀ a ∈ as, Regular limits .expression a) →
        Regular limits .interpolation (.block as)
  /-- Statements at the top, but not a single one. -/
  | program {as : List Node} :
      as.length ≠ 1 → (∀ a ∈ as, Regular limits .expression a) →
        Regular limits .root (.program as)
  /-- An expression at any other place. -/
  | expression {place : Place} {a : Node} :
      place ≠ .expression → Regular limits .expression a → Regular limits place a

/-- Wider limits allow more trees. -/
theorem Regular.mono {limits limits' : Limits} (hn : ∀ x, limits.number x → limits'.number x)
    (hs : ∀ n, limits.sequence n → limits'.sequence n) {place : Place} {a : Node}
    (h : Regular limits place a) : Regular limits' place a := by
  -- Only numbers and sequences are limited; the other rules are kept as they are.
  induction h with
  | number hx => exact .number (hn _ hx)
  | string s => exact .string s
  | boolean b => exact .boolean b
  | null => exact .null
  | regexp hp hf => exact .regexp hp hf
  | identifier h => exact .identifier h
  | unary _ ih => exact .unary ih
  | binary _ _ iha ihb => exact .binary iha ihb
  | assign hi _ _ iha ihb => exact .assign hi iha ihb
  | call _ _ iha ihb => exact .call iha ihb
  | member _ _ iha ihb => exact .member iha ihb
  | object hk _ _ iha ihb => exact .object hk iha ihb
  | array _ ih => exact .array ih
  | template hl hq _ ih => exact .template hl hq ih
  | conditional _ _ _ iha ihb ihc => exact .conditional iha ihb ihc
  | block _ ih => exact .block ih
  | sequence hl _ ih => exact .sequence (hs _ hl) ih
  | program hl _ ih => exact .program hl ih
  | expression hp _ ih => exact .expression hp ih

/-- Whatever can be read back is within the limits of the parser. -/
theorem Regular.parsed_of_printable {place : Place} {a : Node}
    (h : Regular .printable place a) : Regular .parsed place a := by
  have hn (x : Float) (hx : Limits.printable.number x) : Limits.parsed.number x := by
    refine ⟨fun hnan => ?_, hx.2⟩
    have hf := hx.1
    rw [Number.isFinite, hnan] at hf
    cases hf
  have hs (n : Nat) (hn : 2 ≤ n) : n ≠ 1 := by omega
  exact h.mono hn hs

end Brace
