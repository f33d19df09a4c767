import Brace.Source.LexError
import Brace.Number.Literal
import Brace.Text.WhiteSpace
import Brace.Text.DecimalDigit
import Brace.Text.WordChar
import Brace.Text.Alphabetic
import Brace.Text.Numeric
import Brace.Text.Unprintable
import Brace.Text.CaseFolding
import Brace.Json.Printer
import Brace.Json.Number
import Brace.Json.Reader
import Brace.Operator
import Brace.Token.Basic
import Brace.Token.Scan
import Brace.Token.Lexer
import Brace.Node.Basic
import Brace.Node.Source
import Brace.Token.Stream
import Brace.Parser.Grammar
import Brace.Parser.Text
import Brace.Node.Json
import Brace.Regex.Basic
import Brace.Regex.Piece
import Brace.Regex.Reader
import Brace.Pattern
import Brace.Value.Basic
import Brace.Value.Text
import Brace.Number.Numeral
import Brace.Eval.Environment
import Brace.Eval.Node
import Brace.Eval.Scope
import Brace.Host.Script
import Brace.Version
import Brace.Command.Arguments
import Brace.Command.Run
import Brace.Main
import Brace.Proofs.Grammar.Completeness
import Brace.Proofs.Chain.Climbing
import Brace.Proofs.Node.Roundtrip
import Brace.Proofs.Parser.Lookback
import Brace.Proofs.Parser.TemplateBody
import Brace.Proofs.Eval.Sequence
import Brace.Proofs.Eval.Effects
import Brace.Proofs.Token.Restricts
import Brace.Proofs.Token.Answers
import Brace.Proofs.Token.Layout
import Brace.Proofs.Token.Padding
import Brace.Proofs.Node.Alike
import Brace.Proofs.Node.Literals
import Brace.Proofs.Node.Normalized
import Brace.Proofs.Node.Unread
import Brace.Proofs.Eval.Agreement
import Brace.Proofs.Eval.Frame
import Brace.Proofs.Eval.Parsed
import Brace.Proofs.Eval.Eager
import Brace.Proofs.Eval.Success
import Brace.Proofs.Eval.Objects
import Brace.Proofs.Regex.Slashes
import Brace.Proofs.Token.Lookahead
import Brace.Proofs.Parser.Lookahead
import Brace.Proofs.Parser.Bodies
import Brace.Proofs.Eval.Templates
import Brace.Proofs.Number.Spelling
import Brace.Proofs.Value.Members
import Brace.Proofs.Value.Json
import Brace.Proofs.Parser.Advances
import Brace.Proofs.Parser.Ends
import Brace.Proofs.Value.Equality
import Brace.Proofs.Version
import Brace.Proofs.Source.Places
import Brace.Proofs.Parser.Places
import Brace.Proofs.Parser.TemplatePlaces
import Brace.Proofs.Token.Modes
import Brace.Proofs.Parser.Detours
