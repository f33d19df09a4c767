/-
# Running a command

A command answers with what it prints and with an exit status: 0 for success, 1 for a failure and
2 for a command line that is wrong or a version that is not supported.  Commands use the built-in
engine of regular expressions.
-/
import Brace.Command.Arguments
import Brace.Json.Printer
import Brace.Regex.Builtin
import Brace.Version

namespace Brace.Command

/-- What a command leaves behind. -/
structure Outcome where
  /-- The exit status. -/
  code : Nat
  /-- The text on the standard output. -/
  stdout : String := ""
  /-- The text on the standard error output. -/
  stderr : String := ""
  deriving DecidableEq, Repr

namespace Outcome

/-- A success that prints one line. -/
def success (line : String) : Outcome := { code := 0, stdout := line ++ "\n" }

/-- A failure with a message. -/
def failure (message : String) : Outcome := { code := 1, stderr := message ++ "\n" }

end Outcome

/-- The name of the program and its version. -/
def versionLine : String := "brace 0.1.0"

/-- How the program is used. -/
def usageLine : String :=
  "Usage: brace check [--input JSON] [--template] [--ast] [--pretty] [--syntax-only] EXPRESSION"
    ++ " | brace version-check VERSION"

/-- Prints a JSON value. -/
def printJson (pretty : Bool) (j : Json) : String := if pretty then j.pretty else j.compact

/-- Whether a request reads the standard input, unless that is a terminal. -/
def Request.readsInput : Request → Bool
  | check o _ => o.input.isNone && !o.syntaxOnly
  | versionCheck _ => false

/-- Fulfils a request; `stdin` is the text of the standard input, `none` if it is a terminal. -/
def Request.fulfil (stdin : Option String) : Request → Outcome
  | check o pretty =>
    match { o with input := o.input.orElse fun _ => stdin }.check with
    | .error e => .failure e.message
    | .ok .wellFormed => .success "Syntax is valid"
    | .ok (.tree j) | .ok (.value j) => .success (printJson pretty j)
  | versionCheck text =>
    match Version.read text with
    | .error e => .failure e.message
    | .ok v =>
      { Outcome.success (printJson false v.report) with code := if v.isSupported then 0 else 2 }

/-- What is printed if no request is read off the command line. -/
def Interruption.outcome : Interruption → Outcome
  | version => .success versionLine
  | help => .success usageLine
  | usage fault => { code := 2, stderr := fault.message ++ "\n\n" ++ usageLine ++ "\n" }

/-- Runs the program on the words behind its name. -/
def run (words : List String) (stdin : Option String) : Outcome :=
  match readWords words with
  | .ok r => r.fulfil stdin
  | .error i => i.outcome

end Brace.Command
