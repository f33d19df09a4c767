/-
# The program

Reads the command line and, if it is wanted and no terminal, the standard input; prints what the
command answers.
-/
import Brace.Command.Run

namespace Brace.Command

/-- Reads a stream to its end. -/
partial def readAll (stream : IO.FS.Stream) (read : ByteArray) : IO ByteArray := do
  let more ← stream.read 65536
  if more.isEmpty then pure read else readAll stream (read ++ more)

/-- The text of the standard input, unless it is a terminal. -/
def readInput : IO (Except String (Option String)) := do
  let stdin ← IO.getStdin
  if ← stdin.isTty then pure (.ok none)
  else
    match String.fromUTF8? (← readAll stdin ByteArray.empty) with
    | some text => pure (.ok (some text))
    | none => pure (.error "IO error: stream did not contain valid UTF-8")

/-- Runs the program with the standard input. -/
def runWithInput (words : List String) : IO Outcome := do
  match readWords words with
  | .error i => pure i.outcome
  | .ok r =>
    if r.readsInput then
      match ← readInput with
      | .ok stdin => pure (r.fulfil stdin)
      | .error message => pure (.failure message)
    else pure (r.fulfil none)

end Brace.Command

/-- The entry point. -/
def main (words : List String) : IO UInt32 := do
  let outcome ← Brace.Command.runWithInput words
  (← IO.getStdout).putStr outcome.stdout
  (← IO.getStderr).putStr outcome.stderr
  pure (UInt32.ofNat outcome.code)
