import LetScript.Execution.Basic
import LetScript.Tree.Parser

/-!
# The interpreter

A source is read as a whole before anything of it runs. The global names stay from one run to the next,
also after a failure, which is remembered until the flag is reset.
-/

namespace LetScript

/-- Bytes from the outside: all that can be read, and why reading stops unless it is at the end. -/
structure Input where
  /-- What can be read. -/
  data : Text
  /-- The failure after it; `none` for a regular end. -/
  failure : Option Text

/-- A program that runs source after source. -/
structure Interpreter where
  /-- How sources are read. -/
  mode : Mode
  /-- The names and the output. -/
  state : State
  /-- Whether a run has failed since the last reset. -/
  hadError : Bool

namespace Interpreter

/-- An interpreter that has run nothing. -/
def new (mode : Mode) (sink : Sink) : Interpreter := ⟨mode, .initial sink, false⟩

/-- The global names. -/
def globals (it : Interpreter) : Frame := it.state.scope.globals

/-- Reads and runs a source. At a prompt the result is the value of the statement; otherwise it is nil. -/
def run (it : Interpreter) (source text : Text) : Except Diagnostic Value × Interpreter :=
  match parse source it.mode text with
  | .error d => (.error d, { it with hadError := true })
  | .ok program =>
    match Stmt.execAll program it.state with
    | (.error d, st) => (.error d, { it with state := st, hadError := true })
    | (.ok v, st) => (.ok (if it.mode = .prompt then v else .nil), { it with state := st })

/-- Clears the error flag. -/
def reset (it : Interpreter) : Interpreter := { it with hadError := false }

/-- The failure of reading a source to its end. -/
def readFailure (source cause : Text) : Failure :=
  .external (Text.ofString "read " ++ source ++ Text.ofString ": " ++ cause)

/-- The outcome of a run as that of an operation that can also fail otherwise. -/
def liftRun (outcome : Except Diagnostic Value × Interpreter) : Except Failure Value × Interpreter :=
  match outcome with
  | (.ok v, it) => (.ok v, it)
  | (.error d, it) => (.error (.diagnostic d), it)

/-- Reads an input to its end and runs it. If reading fails, nothing runs and the flag stays. -/
def runInput (it : Interpreter) (source : Text) (input : Input) : Except Failure Value × Interpreter :=
  match input.failure with
  | some cause => (.error (readFailure source cause), it)
  | none => liftRun (it.run source input.data)

/-- The content of a script without its interpreter line. A first line that starts with `#!` is dropped;
its line feed stays, so that lines keep their numbers. -/
def scriptText (content : Text) : Text :=
  if (Text.ofString "#!").isPrefixOf content then content.dropWhile (· ≠ Text.newline) else content

/-- Runs the content of a script file; its path names it in diagnostics. -/
def runScript (it : Interpreter) (path content : Text) : Except Diagnostic Value × Interpreter :=
  it.run path (scriptText content)

end Interpreter

/-- The statements that an input spells, once it has been read to its end. -/
def parseInput (source : Text) (mode : Mode) (input : Input) : Except Failure (List Stmt) :=
  match input.failure with
  | some cause => .error (Interpreter.readFailure source cause)
  | none =>
    match parse source mode input.data with
    | .ok program => .ok program
    | .error d => .error (.diagnostic d)

end LetScript
