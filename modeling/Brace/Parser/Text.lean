/-
# Parsing whole texts

A text is parsed as a sequence of statements, as the body of a template, or as the name of a
variable.
-/
import Brace.Parser.Grammar

namespace Brace

/-- Parses a text as an expression or a sequence of statements. -/
def parse (text : String) : Except ParseError Node := do
  let s ← Parser.start (TokenStream.ofString text)
  s.program.toExcept

/-- Parses a text as the body of a template between back-quotes. -/
def parseTemplate (text : String) : Except ParseError Node := parse ("`" ++ text ++ "`")

/-- Parses a text as the name of a variable. -/
def parseIdentifier (text : String) : Except ParseError Node := do
  let a ← parse text
  if a.isIdentifier then pure a else throw (.notIdentifier a)

end Brace
