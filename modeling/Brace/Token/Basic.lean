/-
# Tokens

The words of the language: literals, names, operators, punctuation and reserved words.
-/
import Brace.Operator
import Brace.Number.Decimal
import Brace.Text.Quoted

namespace Brace

/-! ## Punctuation and reserved words -/

/-- Brackets, separators and the quote of templates. -/
inductive Punct where
  /-- The sign `(`. -/
  | leftParen
  /-- The sign `)`. -/
  | rightParen
  /-- The sign `[`. -/
  | leftBracket
  /-- The sign `]`. -/
  | rightBracket
  /-- The left brace. -/
  | leftBrace
  /-- The right brace. -/
  | rightBrace
  /-- The sign `,`. -/
  | comma
  /-- The sign `:`. -/
  | colon
  /-- The sign `;`. -/
  | semicolon
  /-- The back-quote around a template. -/
  | backquote
  deriving DecidableEq, Repr, Inhabited

namespace Punct

/-- All punctuation. -/
def all : List Punct :=
  [leftParen, rightParen, leftBracket, rightBracket, leftBrace, rightBrace, comma, colon,
   semicolon, backquote]

/-- How punctuation is written. -/
def char : Punct → Char
  | leftParen => '('
  | rightParen => ')'
  | leftBracket => '['
  | rightBracket => ']'
  | leftBrace => '\x7b'
  | rightBrace => '\x7d'
  | comma => ','
  | colon => ':'
  | semicolon => ';'
  | backquote => '\x60'

/-- The punctuation that a character is. -/
def ofChar? (c : Char) : Option Punct := all.find? (·.char = c)

/-- Every punctuation is found under its character. -/
theorem ofChar?_char (p : Punct) : ofChar? p.char = some p := by
  cases p <;> decide

end Punct

/-- The words that steer a conditional. -/
inductive Keyword where
  /-- The word `if`. -/
  | if_
  /-- The word `then`. -/
  | then_
  /-- The word `else`. -/
  | else_
  deriving DecidableEq, Repr, Inhabited

namespace Keyword

/-- How a reserved word is written. -/
def word : Keyword → String
  | if_ => "if"
  | then_ => "then"
  | else_ => "else"

/-- The reserved word that a word is. -/
def ofWord? (s : String) : Option Keyword := [if_, then_, else_].find? (·.word = s)

/-- Every reserved word is found under its spelling. -/
theorem ofWord?_word (k : Keyword) : ofWord? k.word = some k := by
  cases k <;> decide

end Keyword

/-! ## Tokens -/

/-- A token of a source text. -/
inductive Token where
  /-- A number. -/
  | number (value : Float)
  /-- A quoted text, or a piece of the text of a template. -/
  | string (value : String)
  /-- A truth value. -/
  | boolean (value : Bool)
  /-- The word `null`. -/
  | null
  /-- A regular expression, kept as it is written. -/
  | regexp (pattern flags : String)
  /-- A name. -/
  | identifier (name : String)
  /-- An operator. -/
  | operator (op : Operator)
  /-- Punctuation. -/
  | punct (p : Punct)
  /-- A reserved word. -/
  | keyword (k : Keyword)
  /-- The end of the source. -/
  | eof
  deriving DecidableEq, Repr, Inhabited

namespace Token

/-- How messages name a token. -/
def text : Token → String
  | number x => "number " ++ Number.text x
  | string s => "string " ++ Text.quoted s
  | boolean b => "boolean " ++ toString b
  | null => "null"
  | regexp pattern flags => "regexp /" ++ pattern ++ "/" ++ flags
  | identifier name => "identifier `" ++ name ++ "`"
  | operator op => "operator `" ++ op.spelling ++ "`"
  | punct p => "punctuation `" ++ p.char.toString ++ "`"
  | keyword k => "keyword `" ++ k.word ++ "`"
  | eof => "end of input"

/-- The token that a whole word is: a literal, an operator, a reserved word or else a name. -/
def ofWord (word : String) : Token :=
  if word = "true" then boolean true
  else if word = "false" then boolean false
  else if word = "null" then null
  else
    match Operator.ofWord? word, Keyword.ofWord? word with
    | some op, _ => operator op
    | none, some k => keyword k
    | none, none => identifier word

/-- Whether a slash behind this token begins a regular expression: it does where an operand is
expected, behind an operator, a reserved word, an opening bracket or a separator. -/
def expectsOperand : Token → Bool
  | operator _ | keyword _ => true
  | punct p =>
    match p with
    | .leftParen | .leftBracket | .leftBrace | .comma | .colon | .semicolon => true
    | .rightParen | .rightBracket | .rightBrace | .backquote => false
  | _ => false

end Token

end Brace
