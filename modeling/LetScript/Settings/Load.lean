import LetScript.Files.Basic
import LetScript.Settings.Decoder

/-!
# Loading settings

Settings are read from one file over the defaults. Whatever is wrong with the file, the defaults hold in
full: no setting of a faulty file is kept.
-/

namespace LetScript

/-- Where a user's files are: texts that are empty where nothing is known. -/
structure Environment where
  /-- The home directory. -/
  home : Text
  /-- The settings file that the user asks for. -/
  settingsFile : Text

/-- Why settings cannot be loaded. -/
inductive SettingsError where
  /-- The file cannot be opened. -/
  | notOpened (path cause : Text)
  /-- The file can be opened and not be read. -/
  | notRead (path cause : Text)
  /-- The file is no document. -/
  | malformed (path : Text) (why : Yaml.Malformed)
  /-- The document is no settings document. -/
  | mismatched (path : Text) (mismatches : List Settings.Mismatch)
  /-- The name for diagnostics is empty. -/
  | emptySourceName (path : Text)
  /-- The number of columns is negative. -/
  | negativeWidth (path : Text) (width : Int)

namespace SettingsError

/-- The message for a file with a document in it that cannot be used. -/
def parseMessage (path reason : Text) : Text :=
  Text.ofString "config: parse " ++ path ++ Text.ofString ": yaml: " ++ reason

/-- The wording of an error. -/
def message : SettingsError → Text
  | notOpened path cause =>
    Text.ofString "config: open " ++ path ++ Text.ofString ": " ++ FileRead.openMessage path cause
  | notRead path cause =>
    parseMessage path (Text.ofString "input error: " ++ FileRead.readMessage path cause)
  | malformed path why => parseMessage path why.message
  | mismatched path mismatches =>
    parseMessage path (Text.ofString "unmarshal errors:" ++
      mismatches.flatMap fun m => Text.ofString "\n  " ++ m.message)
  | emptySourceName path =>
    Text.ofString "config: " ++ path ++ Text.ofString ": source_name must not be empty"
  | negativeWidth path width =>
    Text.ofString "config: " ++ path ++ Text.ofString ": max_echo_width must not be negative, got " ++
      Text.ofInt width

end SettingsError

namespace Settings

/-- Checks settings that have been read. -/
def validate (path : Text) (s : Settings) : Except SettingsError Settings :=
  if s.sourceName = [] then .error (.emptySourceName path)
  else if s.maxEchoWidth < 0 then .error (.negativeWidth path s.maxEchoWidth)
  else .ok s

/-- Reads the content of a file over settings. These are given up if anything is wrong with the content, whatever
has been read by then. A content without a document is read as it is. -/
def readOver (decoder : Decoder) (s : Settings) (path content : Text) : Settings × Option SettingsError :=
  match decoder content s with
  | (read, .nothing) => (read, none)
  | (_, .malformed why) => (default, some (.malformed path why))
  | (_, .mismatched mismatches) => (default, some (.mismatched path mismatches))
  | (read, .done) =>
    match validate path read with
    | .error e => (default, some e)
    | .ok checked => (checked, none)

/-- The settings to go on with, and the error if there is one, by the outcome of reading a file. A file that is
missing counts as empty unless it is required, and no path at all means no file. -/
def load (path : Text) (required : Bool) (outcome : FileRead) (decoder : Decoder := yaml) :
    Settings × Option SettingsError :=
  let s := default
  if path = [] then (s, none)
  else
    match outcome with
    | .missing => if required then (s, some (.notOpened path FileRead.missingCause)) else (s, none)
    | .notOpened cause => (s, some (.notOpened path cause))
    | .notRead cause => (default, some (.notRead path cause))
    | .content data => readOver decoder s path data

/-- The settings file, and whether the user asks for it. -/
def filePath (env : Environment) : Text × Bool :=
  if env.settingsFile ≠ [] then (env.settingsFile, true)
  else if env.home = [] then ([], false)
  else (Path.join env.home (Text.ofString ".uvl.yaml"), false)

/-- The file for entered lines; empty if they are not kept. -/
def historyPath (s : Settings) (env : Environment) : Text :=
  if !s.history ∨ s.historyFile = [] then []
  else if Path.isAbsolute s.historyFile then s.historyFile
  else if env.home = [] then []
  else Path.join env.home s.historyFile

end Settings

end LetScript
