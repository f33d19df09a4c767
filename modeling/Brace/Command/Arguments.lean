/-
# Command lines

The words behind the name of the program say what it is to do.  An option is given at most once;
options of one letter can be written behind a single hyphen; a value stands in the next word, or
behind an equals sign, or directly behind the letter of its option.  Whatever follows a double
hyphen is no option.
-/
import Brace.Command.Check

namespace Brace.Command

/-! ## What a command line says -/

/-- What the program is to do. -/
inductive Request where
  /-- To check an expression, and to print the result over several lines if `pretty` is set. -/
  | check (o : CheckOptions) (pretty : Bool)
  /-- To say whether a schema version is supported. -/
  | versionCheck (text : String)
  deriving DecidableEq, Repr

/-- What is wrong with a command line. -/
inductive UsageFault where
  /-- No command is given. -/
  | missingCommand
  /-- A word has no place. -/
  | unexpected (word : String)
  /-- A word that must be there is missing. -/
  | missing (what : String)
  /-- An option without its value. -/
  | missingValue (option : String)
  /-- A value behind an option that takes none. -/
  | unwantedValue (option : String)
  /-- An option is given twice. -/
  | repeated (option : String)
  deriving DecidableEq, Repr

/-- The wording of a fault. -/
def UsageFault.message : UsageFault → String
  | missingCommand => "error: a command is required"
  | unexpected word => "error: unexpected argument '" ++ word ++ "' found"
  | missing what => "error: the required argument <" ++ what ++ "> was not provided"
  | missingValue option => "error: a value is required for '" ++ option ++ "'"
  | unwantedValue option => "error: '" ++ option ++ "' takes no value"
  | repeated option => "error: '" ++ option ++ "' cannot be used multiple times"

/-- Why no request is read off a command line. -/
inductive Interruption where
  /-- The version of the program is asked for. -/
  | version
  /-- Help is asked for. -/
  | help
  /-- The command line is wrong. -/
  | usage (fault : UsageFault)
  deriving DecidableEq, Repr

/-! ## Options of a check -/

/-- The options of a check that are given or not. -/
inductive Switch where
  /-- The source is the body of a template. -/
  | template
  /-- The tree is wanted. -/
  | ast
  /-- The result is printed over several lines. -/
  | pretty
  /-- Nothing but the syntax is looked at. -/
  | syntaxOnly
  deriving DecidableEq, Repr

namespace Switch

/-- The word of an option. -/
def long : Switch → String
  | template => "--template"
  | ast => "--ast"
  | pretty => "--pretty"
  | syntaxOnly => "--syntax-only"

/-- The option that a word names. -/
def ofLong? (word : String) : Option Switch :=
  [template, ast, pretty, syntaxOnly].find? (·.long = word)

/-- The option that a letter names. -/
def ofShort? : Char → Option Switch
  | 't' => some template
  | 'p' => some pretty
  | _ => none

end Switch

/-- The word of the option that takes the variables. -/
def inputOption : String := "--input"

/-- What has been read of the words behind the command `check`. -/
structure CheckWords where
  /-- The source. -/
  expression : Option String := none
  /-- The text of the variables. -/
  input : Option String := none
  /-- The options that are given. -/
  switches : List Switch := []
  deriving DecidableEq, Repr

namespace CheckWords

/-- Notes the source. -/
def putExpression (w : CheckWords) (s : String) : Except Interruption CheckWords :=
  match w.expression with
  | none => .ok { w with expression := some s }
  | some _ => .error (.usage (.unexpected s))

/-- Notes the text of the variables. -/
def putInput (w : CheckWords) (s : String) : Except Interruption CheckWords :=
  match w.input with
  | none => .ok { w with input := some s }
  | some _ => .error (.usage (.repeated inputOption))

/-- Notes an option. -/
def putSwitch (w : CheckWords) (k : Switch) : Except Interruption CheckWords :=
  if w.switches.contains k then .error (.usage (.repeated k.long))
  else .ok { w with switches := k :: w.switches }

/-- The request that the words make. -/
def request (w : CheckWords) : Except Interruption Request :=
  match w.expression with
  | none => .error (.usage (.missing "EXPRESSION"))
  | some s =>
    .ok <| .check
      { expression := s, input := w.input, template := w.switches.contains .template,
        ast := w.switches.contains .ast, syntaxOnly := w.switches.contains .syntaxOnly }
      (w.switches.contains .pretty)

end CheckWords

/-! ## Reading -/

/-- Whether a word is read as options: it begins with a hyphen and is not a single one. -/
def isOption (word : String) : Bool :=
  match word.toList with
  | '-' :: _ :: _ => true
  | _ => false

/-- Splits a word at its first equals sign. -/
def splitValue (word : String) : String × Option String :=
  let name := word.toList.takeWhile (· != '=')
  match word.toList.drop name.length with
  | [] => (word, none)
  | _ :: value => (String.ofList name, some (String.ofList value))

/-- Reads the letters behind a single hyphen.  The second answer says whether the last one is that
of the variables and still wants its value. -/
def readLetters (w : CheckWords) : List Char → Except Interruption (CheckWords × Bool)
  | [] => .ok (w, false)
  | 'h' :: _ => .error .help
  | ['i'] => .ok (w, true)
  | 'i' :: '=' :: value => (w.putInput (String.ofList value)).map (·, false)
  | 'i' :: value => (w.putInput (String.ofList value)).map (·, false)
  | c :: cs =>
    match Switch.ofShort? c with
    | some k => do readLetters (← w.putSwitch k) cs
    | none => .error (.usage (.unexpected (String.ofList ['-', c])))

/-- Reads a word that begins with two hyphens, with the same answers. -/
def readLong (w : CheckWords) (word : String) : Except Interruption (CheckWords × Bool) :=
  let (name, value) := splitValue word
  match Switch.ofLong? name, value with
  | some k, none => (w.putSwitch k).map (·, false)
  | some k, some _ => .error (.usage (.unwantedValue k.long))
  | none, value =>
    if name = inputOption then
      match value with
      | some s => (w.putInput s).map (·, false)
      | none => .ok (w, true)
    else if word = "--help" then .error .help
    else .error (.usage (.unexpected word))

/-- Reads a word of options. -/
def readOption (w : CheckWords) (word : String) : Except Interruption (CheckWords × Bool) :=
  match word.toList with
  | '-' :: '-' :: _ => readLong w word
  | '-' :: letters => readLetters w letters
  | _ => .error (.usage (.unexpected word))

/-- Reads the words behind the command `check`. -/
def readCheck (w : CheckWords) : List String → Except Interruption CheckWords
  | [] => .ok w
  | word :: words =>
    if word = "--" then words.foldlM CheckWords.putExpression w
    else if isOption word then do
      let (w, wantsValue) ← readOption w word
      if wantsValue then
        match words with
        | [] => .error (.usage (.missingValue inputOption))
        | value :: words =>
          if isOption value then .error (.usage (.missingValue inputOption))
          else do readCheck (← w.putInput value) words
      else readCheck w words
    else do readCheck (← w.putExpression word) words

/-- Reads the words behind the command `version-check`. -/
def readVersionCheck (text : Option String) : List String → Except Interruption Request
  | [] =>
    match text with
    | some s => .ok (.versionCheck s)
    | none => .error (.usage (.missing "VERSION"))
  | word :: words =>
    if word = "--" ∧ text.isNone then
      match words with
      | [s] => .ok (.versionCheck s)
      | [] => .error (.usage (.missing "VERSION"))
      | _ :: s :: _ => .error (.usage (.unexpected s))
    else if word = "--help" ∨ word.toList.take 2 = ['-', 'h'] then .error .help
    else if isOption word ∨ text.isSome then .error (.usage (.unexpected word))
    else readVersionCheck (some word) words

/-- Reads the words of a command line. -/
def readWords : List String → Except Interruption Request
  | [] => .error (.usage .missingCommand)
  | "check" :: words => do (← readCheck {} words).request
  | "version-check" :: words => readVersionCheck none words
  | "help" :: _ => .error .help
  | word :: _ =>
    if word = "--version" ∨ word.toList.take 2 = ['-', 'V'] then .error .version
    else if word = "--help" ∨ word.toList.take 2 = ['-', 'h'] then .error .help
    else .error (.usage (.unexpected word))

end Brace.Command
