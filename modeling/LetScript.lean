import LetScript.CommandLine
import LetScript.Decimal.Basic
import LetScript.Decimal.Binary64
import LetScript.Decimal.Shortest
import LetScript.Diagnostic.Basic
import LetScript.Diagnostic.Context
import LetScript.Diagnostic.Fault
import LetScript.Execution.Basic
import LetScript.Execution.Eval
import LetScript.Execution.Sink
import LetScript.Files.Basic
import LetScript.Files.Path
import LetScript.Interpreter
import LetScript.Main
import LetScript.Scope.Basic
import LetScript.Scope.Forest
import LetScript.Scope.Frame
import LetScript.Session.Basic
import LetScript.Session.Buffered
import LetScript.Session.History
import LetScript.Session.Interactive
import LetScript.Settings.Basic
import LetScript.Settings.Decode
import LetScript.Settings.Decoder
import LetScript.Settings.Load
import LetScript.Text.Base64
import LetScript.Text.Basic
import LetScript.Text.Blank
import LetScript.Text.Columns
import LetScript.Text.Control
import LetScript.Text.Digit
import LetScript.Text.Glyph
import LetScript.Text.Letter
import LetScript.Text.Printable
import LetScript.Text.Quoted
import LetScript.Text.Ranges
import LetScript.Text.Trim
import LetScript.Text.Width
import LetScript.Token.Basic
import LetScript.Token.Kind
import LetScript.Token.Lexer
import LetScript.Tree.Basic
import LetScript.Tree.Outline
import LetScript.Tree.Parser
import LetScript.Tree.Sexpr
import LetScript.Value.Basic
import LetScript.Value.Operator
import LetScript.Yaml.Cursor
import LetScript.Yaml.Gap
import LetScript.Yaml.Lexer
import LetScript.Yaml.Node
import LetScript.Yaml.Parser
import LetScript.Yaml.Problem
import LetScript.Yaml.Property
import LetScript.Yaml.Resolve
import LetScript.Yaml.Scalar
import LetScript.Yaml.Source
import LetScript.Yaml.Timestamp
import LetScript.Yaml.Token
import LetScript.Proofs.Syntax.Grammar
import LetScript.Proofs.Syntax.Reader
import LetScript.Proofs.Syntax.Sound
import LetScript.Proofs.Syntax.Complete
import LetScript.Proofs.Syntax.Prompt
import LetScript.Proofs.Syntax.Stops
import LetScript.Proofs.Syntax.Extension
import LetScript.Proofs.Syntax.Finality
import LetScript.Proofs.Syntax.Refusal
import LetScript.Proofs.Syntax.Continuation
import LetScript.Proofs.Syntax.Blame
import LetScript.Proofs.Syntax.Relocation
import LetScript.Proofs.Syntax.Sentences
import LetScript.Proofs.Syntax.Relabelling
import LetScript.Proofs.Syntax.LineFeed
import LetScript.Proofs.Lexical.Glyphs
import LetScript.Proofs.Lexical.Grammar
import LetScript.Proofs.Lexical.Pieces
import LetScript.Proofs.Lexical.Scan
import LetScript.Proofs.Lexical.Seam
import LetScript.Proofs.Lexical.Placement
import LetScript.Proofs.Lexical.Spacing
import LetScript.Proofs.Decimal.Rounding
import LetScript.Proofs.Decimal.Bits
import LetScript.Proofs.Lexical.Numerals
import LetScript.Proofs.Syntax.Forms
import LetScript.Proofs.Syntax.Readability
import LetScript.Proofs.Scope.Keeping
import LetScript.Proofs.Scope.Places
import LetScript.Proofs.Scope.Ancestry
import LetScript.Proofs.Scope.Chain
import LetScript.Proofs.Execution.Scoping
import LetScript.Proofs.Execution.StaticScope
import LetScript.Proofs.Execution.Faults
import LetScript.Proofs.Execution.Replay
import LetScript.Proofs.Execution.Payloads
import LetScript.Proofs.Execution.Stores
import LetScript.Proofs.Execution.Lockstep
import LetScript.Proofs.Execution.Locality
import LetScript.Proofs.Execution.Wrapping
import LetScript.Proofs.Execution.Chains
import LetScript.Proofs.Execution.Truncation
import LetScript.Proofs.Execution.Erasure
import LetScript.Proofs.Interpreter.Globals
import LetScript.Proofs.Interpreter.Concatenation
import LetScript.Proofs.Interpreter.Display
import LetScript.Proofs.Session.Lines
import LetScript.Proofs.Session.Script
import LetScript.Proofs.Session.Piped
import LetScript.Proofs.Interpreter.Scripts
import LetScript.Proofs.Session.Echo
import LetScript.Proofs.Settings.Overlay
import LetScript.Proofs.Settings.Listing
import LetScript.Proofs.Settings.Order
import LetScript.Proofs.Settings.Loading
import LetScript.Proofs.Syntax.Cursor
import LetScript.Proofs.Syntax.Walk
import LetScript.Proofs.Syntax.Traversal
