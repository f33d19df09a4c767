/-
# Schema versions

A document names the version of the schema that it was written for.  Versions are triples of
numbers, compared from the first number to the last, and a range of them is supported.
-/
import Brace.Json.Basic
import Brace.Text.WhiteSpace

namespace Brace

/-- A version: three numbers of 64 bits. -/
structure Version where
  /-- The first number. -/
  major : UInt64
  /-- The second number. -/
  minor : UInt64
  /-- The third number. -/
  patch : UInt64
  deriving DecidableEq, Repr

/-- Why a version is not read. -/
inductive VersionError where
  /-- The text, as it was given, is no version. -/
  | malformed (text : String)
  deriving DecidableEq, Repr

/-- The wording of a refusal. -/
def VersionError.message : VersionError → String
  | malformed s => "Invalid schema version `" ++ s ++ "`, expected MAJOR.MINOR.PATCH"

namespace Version

/-! ## Order -/

/-- The order of versions, from the first number to the last. -/
instance : Ord Version where
  compare a b :=
    (compare a.major b.major).then ((compare a.minor b.minor).then (compare a.patch b.patch))

/-- The oldest supported version. -/
def oldest : Version := ⟨0, 0, 1⟩

/-- The newest supported version. -/
def newest : Version := ⟨0, 0, 12⟩

/-- Whether a version is neither older than the oldest nor newer than the newest supported one. -/
def isSupported (v : Version) : Bool := (compare oldest v).isLE && (compare v newest).isLE

/-! ## Text -/

/-- The numbers of a version with points between them. -/
def text (v : Version) : String :=
  toString v.major.toNat ++ "." ++ toString v.minor.toNat ++ "." ++ toString v.patch.toNat

/-- The parts of a text between its points. -/
def splitPoints : List Char → List (List Char)
  | [] => [[]]
  | c :: cs =>
    if c = '.' then [] :: splitPoints cs
    else
      match splitPoints cs with
      | [] => [[c]]
      | part :: parts => (c :: part) :: parts

/-- Reads a number: decimal digits that do not exceed 64 bits. -/
def readPart? (digits : List Char) : Option UInt64 :=
  if digits.isEmpty || !digits.all Char.isDigit then none
  else
    let n := Nat.ofDigitChars 10 digits 0
    if h : n < UInt64.size then some (UInt64.ofNatLT n h) else none

/-- Reads a version, with or without white space around it. -/
def ofText? (s : String) : Option Version :=
  match splitPoints (Text.trim s.toList) with
  | [a, b, c] => Version.mk <$> readPart? a <*> readPart? b <*> readPart? c
  | _ => none

/-- Reads a version; a text that is none is refused together with its white space. -/
def read (s : String) : Except VersionError Version :=
  match ofText? s with
  | some v => .ok v
  | none => .error (.malformed s)

/-- The wording of the refusal of a text that is no version. -/
def malformedMessage (s : String) : String := (VersionError.malformed s).message

/-- Whether a document that names a version can be evaluated. -/
def isCompatible (s : String) : Except VersionError Bool := (read s).map isSupported

/-- Whether a document that names a version can be evaluated; `none` if the text is no version. -/
def isCompatible? (s : String) : Option Bool := (isCompatible s).toOption

/-- The report on a version: whether it is supported, and the range of those that are. -/
def report (v : Version) : Json :=
  .ofMembers
    [("version", .string v.text), ("supported", .bool v.isSupported),
     ("min", .string oldest.text), ("max", .string newest.text)]

end Version

end Brace
