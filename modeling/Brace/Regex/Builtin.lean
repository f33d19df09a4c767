/-
# The built-in engine

The engine that the program runs with reads a pattern and matches it by derivatives.  It stands in
for an engine with a larger language: classes of Unicode properties (`\p` and `\P`) and the flags
`x`, `u` and `R` inside a pattern are refused here.  Nothing but the program itself depends on it.
-/
import Brace.Regex.Engine
import Brace.Regex.Reader

namespace Brace.Regex

/-- What the built-in engine says of a pattern that it refuses.  Other engines say what is wrong
with it. -/
def refusal : String := "regex parse error"

/-- The built-in engine. -/
instance builtin : Engine where
  Compiled := Regex
  compile settings pattern :=
    (read? ⟨settings.insensitive, settings.multiLine, false⟩ pattern).elim (.error refusal) .ok
  isMatch := isMatch

end Brace.Regex
