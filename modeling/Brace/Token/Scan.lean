/-
# Lexemes

One function for each kind of lexeme.  It looks at the front of the characters still to be read
and answers what stands there together with the number of characters that it takes up.
-/
import Brace.Number.Literal
import Brace.Token.Basic

namespace Brace.Scan

/-! ## Character classes -/

/-- Whether a character is a blank of the language. -/
def isBlank (c : Char) : Bool := c == ' ' || c == '\t' || c == '\n' || c == '\r'

/-- Whether a name can begin with a character. -/
def isNameStart (c : Char) : Bool := c.isAlpha || c == '_'

/-- Whether a name can go on with a character. -/
def isNameChar (c : Char) : Bool := isNameStart c || c.isDigit

/-- Whether a character is a flag of regular expressions. -/
def isFlag (c : Char) : Bool := ['g', 'i', 'm', 'u', 'y'].contains c

/-! ## Layout -/

/-- The number of characters of layout at the front: blanks and comments.  A comment runs from a
number sign to the next one or to the end of the line, both included; the first argument says
whether one is open. -/
def layout : Bool → List Char → Nat
  | _, [] => 0
  | true, c :: cs => layout (c != '\n' && c != '#') cs + 1
  | false, c :: cs =>
    if isBlank c then layout false cs + 1
    else if c = '#' then layout true cs + 1
    else 0

/-! ## Literals -/

/-- Reads the inside of a quoted text and its closing quote.  A backslash stands for the character
behind it.  `none` if the quote is not closed. -/
def quoted (quote : Char) : List Char → Option (List Char × Nat)
  | [] => none
  | ['\\'] => none
  | '\\' :: c :: cs => (quoted quote cs).map fun (text, n) => (c :: text, n + 2)
  | c :: cs =>
    if c = quote then some ([], 1)
    else (quoted quote cs).map fun (text, n) => (c :: text, n + 1)

/-- Reads a number: digits with at most one point among or behind them.  `none` if a second point
follows, which is then the last character taken. -/
def number (cs : List Char) : Option Number.Literal × Nat :=
  let whole := cs.takeWhile Char.isDigit
  match cs.drop whole.length with
  | '.' :: more =>
    let fraction := more.takeWhile Char.isDigit
    let n := whole.length + 1 + fraction.length
    if (more.drop fraction.length).head? = some '.' then (none, n + 1)
    else (some ⟨whole, fraction, 0⟩, n)
  | _ => (some ⟨whole, [], 0⟩, whole.length)

/-- Reads the pattern of a regular expression and its closing slash.  A slash behind a backslash
does not close it; the first argument says whether such a backslash stands in front. -/
def pattern : Bool → List Char → Option (List Char × Nat)
  | _, [] => none
  | escaped, c :: cs =>
    if c = '/' ∧ escaped = false then some ([], 1)
    else (pattern (c == '\\' && !escaped) cs).map fun (text, n) => (c :: text, n + 1)

/-- Reads the flags of a regular expression, each of which may occur once.  A blank, punctuation or
the end of the source stops them; at any other character they are refused together with it.
`seen` holds the flags read so far, the last one first. -/
def flags (seen : List Char) : List Char → Except (List Char) (List Char)
  | [] => .ok seen.reverse
  | c :: cs =>
    if isFlag c && !seen.contains c then flags (c :: seen) cs
    else if isBlank c || (Punct.ofChar? c).isSome then .ok seen.reverse
    else .error (c :: seen).reverse

/-! ## Templates -/

/-- What stops the text of a template. -/
inductive TemplateStop where
  /-- The end of the source. -/
  | endOfSource
  /-- A back-quote, which is not taken. -/
  | backquote
  /-- An opening brace with something between it and its closing brace; the brace and the blanks
  behind it are taken. -/
  | interpolation
  deriving DecidableEq, Repr

/-- A run of the text of a template. -/
structure TemplateRun where
  /-- The text. -/
  text : List Char
  /-- The number of characters taken. -/
  length : Nat
  /-- What comes behind it. -/
  stop : TemplateStop
  deriving DecidableEq, Repr

/-- The run with `text`, for which `n` characters were taken, in front of it. -/
def TemplateRun.after (text : List Char) (n : Nat) (run : TemplateRun) : TemplateRun :=
  ⟨text ++ run.text, n + run.length, run.stop⟩

/-- Reads the text of a template.  A backslash in front of a brace or a back-quote is dropped, two
backslashes stay two, and an empty pair of braces leaves nothing.  The first argument says
whether an opening brace, perhaps with blanks behind it, stands in front. -/
def template : Bool → List Char → TemplateRun
  | true, [] => ⟨[], 0, .interpolation⟩
  | true, c :: cs =>
    if isBlank c then (template true cs).after [] 1
    -- The pair of braces is empty, so the text goes on behind it.
    else if c = '\x7d' then (template false cs).after [] 1
    else ⟨[], 0, .interpolation⟩
  | false, [] => ⟨[], 0, .endOfSource⟩
  | false, '\\' :: '\x7b' :: cs => (template false cs).after ['\x7b'] 2
  | false, '\\' :: '\x60' :: cs => (template false cs).after ['\x60'] 2
  | false, '\\' :: '\\' :: cs => (template false cs).after ['\\', '\\'] 2
  | false, c :: cs =>
    if c = '\x60' then ⟨[], 0, .backquote⟩
    else if c = '\x7b' then (template true cs).after [] 1
    else (template false cs).after [c] 1

/-! ## How much is taken -/

/-- No more characters are taken than there are. -/
theorem template_length_le (opened : Bool) (cs : List Char) :
    (template opened cs).length ≤ cs.length := by
  fun_induction template opened cs <;> simp_all [TemplateRun.after] <;> omega

/-- A run takes at least the characters of its text. -/
theorem template_text_length_le (opened : Bool) (cs : List Char) :
    (template opened cs).text.length ≤ (template opened cs).length := by
  fun_induction template opened cs <;> simp_all [TemplateRun.after] <;> omega

/-- A run that stops at a back-quote leaves it to be read. -/
theorem template_length_lt (opened : Bool) (cs : List Char)
    (h : (template opened cs).stop = .backquote) : (template opened cs).length < cs.length := by
  fun_induction template opened cs <;> simp_all [TemplateRun.after] <;> omega

/-- A run that stops at an interpolation has taken its brace, unless that stood in front. -/
theorem template_length_pos (cs : List Char) (h : (template false cs).stop = .interpolation) :
    0 < (template false cs).length := by
  generalize ho : false = opened at h ⊢
  revert ho h
  fun_cases template opened cs
  all_goals
    intro h ho
    -- No brace stands in front, an empty run stops elsewhere, and every other run has begun.
    first
    | exact absurd ho (by decide)
    | exact absurd h (by decide)
    | exact Nat.add_pos_left (by decide) _

end Brace.Scan
