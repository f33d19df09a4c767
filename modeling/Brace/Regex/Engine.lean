/-
# Engines of regular expressions

The regular expressions of the language belong to an engine, which is a library of its own.  It
compiles the text of a pattern or refuses it with a message, and it searches texts for what it has
compiled.  Whatever is said of values and of evaluations holds for every engine.
-/

namespace Brace.Regex

/-- The settings under which a pattern is compiled. -/
structure Settings where
  /-- Case does not matter. -/
  insensitive : Bool
  /-- The signs for the start and the end stand for those of lines. -/
  multiLine : Bool
  deriving DecidableEq, Repr

/-- The settings that flags ask for; letters other than `i` and `m` change nothing. -/
def Settings.ofFlags (flags : String) : Settings where
  insensitive := flags.toList.contains 'i'
  multiLine := flags.toList.contains 'm'

/-- An engine of regular expressions. -/
class Engine where
  /-- What a pattern is compiled to. -/
  Compiled : Type
  /-- Compiles a pattern, or says why it is refused. -/
  compile : Settings → String → Except String Compiled
  /-- Whether some part of a text matches. -/
  isMatch : Compiled → String → Bool

end Brace.Regex
