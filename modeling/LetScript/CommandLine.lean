import LetScript.Session.Interactive
import LetScript.Settings.Load

/-!
# The command line

Without arguments the program holds a conversation; with one it runs a script, where a dash stands for
the standard input. The exit status tells whether all went well (0), the input was wrong (65) or the
program failed while it ran (70).
-/

namespace LetScript

namespace CommandLine

/-- What the program is given. -/
structure World where
  /-- The arguments. -/
  args : List Text
  /-- The user's places. -/
  env : Environment
  /-- The standard input. -/
  input : Input
  /-- Whether someone types the standard input. -/
  isTerminal : Bool
  /-- The files, by the outcome of reading them. -/
  read : Text → FileRead
  /-- The standard output. -/
  output : Sink

/-- What the program leaves behind. -/
structure Outcome where
  /-- The exit status. -/
  status : Nat
  /-- The standard output. -/
  output : Sink
  /-- The standard error output. -/
  errors : Text
  /-- The prompts with what followed them, if there were any. -/
  turns : List Turn
  /-- A file to be written: its path and content. -/
  saved : Option (Text × Text)

/-- The exit status for wrong input. -/
def dataError : Nat := 65

/-- The exit status for a program that failed while it ran. -/
def softwareError : Nat := 70

/-- How the program is called. -/
def usage : Text := Text.ofString "Usage: uvl [file]"

/-- The exit status for a failure. -/
def statusOf (f : Failure) : Nat := if f.isOfClass .runtime then softwareError else dataError

/-- Runs a script: the standard input for a dash, a file otherwise. -/
def evaluateScript (w : World) (script : Text) : Except Failure Value × Interpreter :=
  let it := Interpreter.new .file w.output
  if script = Text.ofString "-" then it.runInput (Text.ofString "stdin") w.input
  else
    match (w.read script).toExcept script with
    | .error message => (.error (.external message), it)
    | .ok content => Interpreter.liftRun (it.runScript script content)

/-- Runs a script and reports its failure. -/
def runScript (w : World) (script : Text) : Outcome :=
  match evaluateScript w script with
  | (.ok _, it) => ⟨0, it.state.sink, [], [], none⟩
  | (.error f, it) => ⟨statusOf f, it.state.sink, f.message.line, [], none⟩

/-- The history that a file holds; one that cannot be read holds none. -/
def storedHistory (outcome : FileRead) : History :=
  match outcome with
  | .content data => .ofText data
  | _ => []

/-- The conversation at a terminal, with the history file at a path; an empty path stands for none. -/
def converse (s : Session) (path : Text) (read : Text → FileRead) (data : Text) :
    Conversation × Option (Text × Text) :=
  let history := if path = [] then [] else storedHistory (read path)
  let after := s.converse history (Console.lines data)
  (after, if path = [] then none else some (path, after.history.toText))

/-- Holds a conversation. -/
def runSession (w : World) (settings : Settings) : Outcome :=
  let s := Session.new settings w.output
  if w.isTerminal then
    match converse s (settings.historyPath w.env) w.read w.input.data with
    | (after, saved) => ⟨0, after.session.sink, after.session.errors.text, after.turns, saved⟩
  else
    let after := s.runBuffered w.input
    ⟨0, after.sink, after.errors.text, [], none⟩

/-- Loads the settings and holds a conversation. -/
def runConversation (w : World) : Outcome :=
  match Settings.filePath w.env with
  | (path, required) =>
    match Settings.load path required (w.read path) with
    | (_, some e) =>
      ⟨dataError, w.output, (Text.ofString "uvl: " ++ e.message).line, [], none⟩
    | (settings, none) => runSession w settings

/-- The program. -/
def run (w : World) : Outcome :=
  match w.args with
  | [] => runConversation w
  | [script] => runScript w script
  | _ => ⟨dataError, w.output, usage.line, [], none⟩

end CommandLine

end LetScript
