/-
# Patterns

A pattern is a regular expression as a source writes it, with its flags, together with what the
engine makes of it.  A pattern that is refused has no value of this type.
-/
import Brace.Regex.Engine

namespace Brace

namespace Regex

/-- Takes the backslash away from an escaped slash, which needs none once the pattern is no longer
between slashes. -/
def unescapeSlashes : List Char → List Char
  | '\\' :: '/' :: rest => '/' :: unescapeSlashes rest
  | c :: rest => c :: unescapeSlashes rest
  | [] => []

/-- What the engine makes of a pattern with flags, or why it refuses it. -/
def compile [Engine] (source flags : String) : Except String Engine.Compiled :=
  Engine.compile (.ofFlags flags) (String.ofList (unescapeSlashes source.toList))

end Regex

variable [Regex.Engine]

/-- A regular expression with its source. -/
structure Pattern where
  /-- The text between the slashes. -/
  source : String
  /-- The letters behind them. -/
  flags : String
  /-- What the engine has compiled. -/
  compiled : Regex.Engine.Compiled
  /-- It is what the source and the flags stand for. -/
  compile_eq : Regex.compile source flags = .ok compiled

namespace Pattern

/-- The pattern with the given source and flags, or why the engine refuses it. -/
def make (source flags : String) : Except String Pattern :=
  match h : Regex.compile source flags with
  | .ok r => .ok ⟨source, flags, r, h⟩
  | .error message => .error message

/-- The pattern with the given source and flags, unless it is refused. -/
def of? (source flags : String) : Option Pattern := (make source flags).toOption

/-- Whether some part of a text matches. -/
def test (p : Pattern) (text : String) : Bool := Regex.Engine.isMatch p.compiled text

/-- A pattern as it is written, between slashes and with its flags. -/
def text (p : Pattern) : String := "/" ++ p.source ++ "/" ++ p.flags

/-- The source and the flags make the pattern. -/
theorem make_source (p : Pattern) : make p.source p.flags = .ok p := by
  obtain ⟨source, flags, r, h⟩ := p
  unfold make
  split
  · next s hs =>
    cases hs.symm.trans h
    rfl
  · next message hs => cases hs.symm.trans h

/-- Patterns with the same source and flags are equal. -/
theorem ext_source {p q : Pattern} (hs : p.source = q.source) (hf : p.flags = q.flags) :
    p = q := by
  have hq := make_source q
  rw [← hs, ← hf, make_source p] at hq
  exact Except.ok.inj hq

instance : DecidableEq Pattern := fun p q =>
  decidable_of_iff (p.source = q.source ∧ p.flags = q.flags)
    ⟨fun h => ext_source h.1 h.2, fun h => h ▸ ⟨rfl, rfl⟩⟩

end Pattern

end Brace
