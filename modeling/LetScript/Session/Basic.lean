import LetScript.Interpreter
import LetScript.Settings.Basic
import LetScript.Text.Columns
import LetScript.Text.Trim
import LetScript.Tree.Sexpr

/-!
# Sessions

A conversation with an interpreter, line by line. A line that leaves a statement unfinished is kept, and
the lines after it are added until the whole can be run or is wrong. Values are echoed, failures are
reported, and a line that starts with a colon is a command to the session itself.
-/

namespace LetScript

/-- One conversation. -/
structure Session where
  /-- What runs the statements. -/
  interpreter : Interpreter
  /-- The user's settings. -/
  settings : Settings
  /-- Where failures are reported. -/
  errors : Sink
  /-- The lines of an unfinished statement. -/
  buffer : Text
  /-- What measures echoed values. -/
  ruler : Ruler

namespace Session

/-- A conversation that has not begun, with its output. -/
def new (settings : Settings) (sink : Sink) (ruler : Ruler := .terminal) : Session :=
  ⟨.new .prompt sink, settings, .unlimited, [], ruler⟩

/-- What is shown before the next line is entered. -/
def prompt (s : Session) : Text :=
  if s.buffer = [] then s.settings.prompt else s.settings.continuationPrompt

/-- The output. -/
def sink (s : Session) : Sink := s.interpreter.state.sink

/-- Prints a line. Nothing is done about a refusal. -/
def print (s : Session) (line : Text) : Session :=
  let st := s.interpreter.state
  { s with interpreter := { s.interpreter with state := ⟨st.scope, st.sink.write line.line⟩ } }

/-- Reports a failure. -/
def report (s : Session) (text : Text) : Session := { s with errors := s.errors.write text.line }

/-- The mark behind what is kept of a value that is too wide. -/
def ellipsis : Text := Text.ofString "..."

/-- The text of a value, cut to the width that the settings allow. -/
def echo (s : Session) (v : Value) : Text :=
  if 0 < s.settings.maxEchoWidth ∧ s.settings.maxEchoWidth < s.ruler.width v.display then
    s.ruler.truncate v.display s.settings.maxEchoWidth ellipsis
  else v.display

/-! ## Commands -/

/-- A command and its argument: the name ends at the first space or tab. -/
def splitCommand (line : Text) : Text × Text :=
  let name := line.takeWhile fun b => b ≠ 0x20 && b ≠ 0x09
  (name, Text.trim (line.drop (name.length + 1)))

/-- Shows the tree of a statement. -/
def showTree (s : Session) (source : Text) : Session :=
  match parse s.settings.sourceName .prompt source with
  | .error d => s.report d.message
  | .ok [] => s
  | .ok program => s.print (Stmt.programText program)

/-- The line that shows a global name. -/
def bindingLine (s : Session) (name : Text) (b : Binding) : Text :=
  (if b.isMutable then Text.ofString "let mut " else Text.ofString "let ") ++ name ++
    Text.ofString " = " ++ s.echo b.value

/-- Lists the global names. -/
def listNames (s : Session) : Session :=
  s.interpreter.globals.entries.foldl (fun s' (name, b) => s'.print (s.bindingLine name b)) s

/-- Lists the commands. -/
def help (s : Session) : Session :=
  (s.print (Text.ofString ":ast <source>  show the syntax tree of source")).print
    (Text.ofString ":env           list global bindings")

/-- Carries out a command line. -/
def command (s : Session) (line : Text) : Session :=
  match splitCommand line with
  | (name, argument) =>
    if name = Text.ofString ":ast" then s.showTree argument
    else if name = Text.ofString ":env" then s.listNames
    else if name = Text.ofString ":help" then s.help
    else s.report (Text.ofString "unknown command " ++ name ++ Text.ofString " (try :help)")

/-- Whether a line is a command, given that nothing is unfinished. -/
def isCommand (line : Text) : Bool := (Text.trim line).head? = some 0x3A

/-! ## Lines -/

/-- Drops an unfinished statement. -/
def abort (s : Session) : Session := { s with buffer := [], interpreter := s.interpreter.reset }

/-- What follows a run of the lines entered so far: an unfinished statement is kept, a failure is
reported, and a value is echoed. Tells whether more lines are wanted. -/
def conclude (s : Session) (entered : Text) : Except Diagnostic Value → Bool × Session
  | .error d =>
    if d.fault.incomplete then (true, { s with buffer := entered })
    else (false, s.abort.report d.message)
  | .ok v => (false, if v.isNil then s.abort else s.abort.print (s.echo v))

/-- Runs the lines entered so far. -/
def evaluate (s : Session) (entered : Text) : Bool × Session :=
  match s.interpreter.run s.settings.sourceName entered with
  | (result, it) => conclude { s with interpreter := it } entered result

/-- Enters a line, and tells whether it leaves a statement unfinished. -/
def feed (s : Session) (line : Text) : Bool × Session :=
  if s.buffer = [] ∧ isCommand line then (false, s.command (Text.trim line))
  else s.evaluate (s.buffer ++ line.line)

/-- Enters lines one after the other. -/
def feedAll (s : Session) (lines : List Text) : Session := lines.foldl (fun s line => (s.feed line).2) s

end Session

end LetScript
