import LetScript.CommandLine

/-!
# The executable

The layer between the program and the machine: environment variables, files and streams.
-/

namespace LetScript

namespace Machine

/-- A text as a string; bytes that are no characters are lost. -/
def stringOf (t : Text) : String := (String.fromUTF8? (ByteArray.mk t.toArray)).getD ""

/-- Why the machine refuses something. -/
def causeOf (e : IO.Error) : Text :=
  match e with
  | .inappropriateType _ _ details => Text.ofString details.decapitalize
  | .permissionDenied _ _ details => Text.ofString details.decapitalize
  | e => Text.ofString (toString e)

/-- All bytes of a stream up to its end. -/
partial def readAll (stream : IO.FS.Stream) (sofar : ByteArray) : IO ByteArray := do
  let chunk ← stream.read 65536
  if chunk.isEmpty then return sofar else readAll stream (sofar ++ chunk)

/-- Reads a file. -/
def readFile (path : Text) : IO FileRead := do
  match ← (IO.FS.Handle.mk (stringOf path) .read).toBaseIO with
  | .error (.noFileOrDirectory _ _ _) => return .missing
  | .error e => return .notOpened (causeOf e)
  | .ok handle =>
    match ← handle.readBinToEnd.toBaseIO with
    | .error e => return .notRead (causeOf e)
    | .ok data => return .content data.data.toList

/-- Reads the standard input. -/
def readInput : IO Input := do
  match ← (readAll (← IO.getStdin) .empty).toBaseIO with
  | .ok data => return ⟨data.data.toList, none⟩
  | .error e => return ⟨[], some (causeOf e)⟩

/-- Writes a text to a stream. -/
def put (stream : IO.FS.Stream) (t : Text) : IO Unit := do
  stream.write (ByteArray.mk t.toArray)
  stream.flush

/-- Writes a file; nothing is done about a failure. -/
def writeFile (path data : Text) : IO Unit := do
  match ← (IO.FS.writeBinFile (stringOf path) (ByteArray.mk data.toArray)).toBaseIO with
  | .ok _ => return ()
  | .error _ => return ()

/-- An environment variable; one that is not set is empty. -/
def getVariable (name : String) : IO Text := do
  return Text.ofString ((← IO.getEnv name).getD "")

/-- The user's places. -/
def environment : IO Environment := do
  return ⟨← getVariable "HOME", ← getVariable "UVL_CONFIG"⟩

/-- Writes what a session has printed and reported since an earlier moment. -/
def showProgress (before after : Session) : IO Unit := do
  put (← IO.getStdout) (after.sink.textSince before.sink.writes.length)
  put (← IO.getStderr) (after.errors.textSince before.errors.writes.length)

/-- Holds a conversation at a terminal and returns the lines to be kept. -/
partial def converse (s : Session) (history : History) : IO History := do
  if Session.canShow s.prompt then
    put (← IO.getStdout) s.prompt
    let line ← (← IO.getStdin).getLine
    if line.isEmpty then
      showProgress s s.hangUp
      return history
    else
      let typed := Console.stripReturn ((Text.ofString line).filter (· ≠ Text.newline))
      let (s', history') := s.enter history typed
      showProgress s s'
      converse s' history'
  else
    showProgress s s.refusePrompt
    return history

/-- Holds a conversation at a terminal with the user's settings. -/
def runTerminal (settings : Settings) (env : Environment) : IO Unit := do
  let path := settings.historyPath env
  let stored ← if path = [] then pure FileRead.missing else readFile path
  let history ← converse (.new settings .unlimited) (CommandLine.storedHistory stored)
  if path ≠ [] then writeFile path history.toText

/-- Writes the outcome of a run and returns the exit status. -/
def conclude (o : CommandLine.Outcome) : IO UInt32 := do
  put (← IO.getStdout) o.output.text
  put (← IO.getStderr) o.errors
  return UInt32.ofNat o.status

/-- Runs the program with an input and the files that it may ask for. -/
def runWith (args : List Text) (env : Environment) (input : Input) (files : List (Text × FileRead)) :
    IO UInt32 :=
  let read (path : Text) : FileRead := (files.lookup path).getD .missing
  conclude (CommandLine.run ⟨args, env, input, false, read, .unlimited⟩)

/-- Holds a conversation: at a terminal with prompts, otherwise over the whole input. -/
def runConversation (env : Environment) : IO UInt32 := do
  let (path, required) := Settings.filePath env
  let outcome ← readFile path
  match Settings.load path required outcome with
  | (_, some _) => runWith [] env ⟨[], none⟩ [(path, outcome)]
  | (settings, none) =>
    if ← (← IO.getStdin).isTty then
      runTerminal settings env
      return 0
    else runWith [] env (← readInput) [(path, outcome)]

end Machine

end LetScript

/-- The program. -/
def main (args : List String) : IO UInt32 := do
  let env ← LetScript.Machine.environment
  match args.map LetScript.Text.ofString with
  | [] => LetScript.Machine.runConversation env
  | [script] =>
    if args = ["-"] then LetScript.Machine.runWith [script] env (← LetScript.Machine.readInput) []
    else
      let outcome ← LetScript.Machine.readFile script
      LetScript.Machine.runWith [script] env ⟨[], none⟩ [(script, outcome)]
  | others => LetScript.Machine.runWith others env ⟨[], none⟩ []
