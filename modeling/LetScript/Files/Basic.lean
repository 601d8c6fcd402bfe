import LetScript.Files.Path

/-!
# Files

What can be learned from trying to read a file, and a tree of files and directories in which paths are
looked up from the top.
-/

namespace LetScript

/-- The outcome of reading a file. -/
inductive FileRead where
  /-- The file with its content. -/
  | content (data : Text)
  /-- There is no such file. -/
  | missing
  /-- The file cannot be opened. -/
  | notOpened (cause : Text)
  /-- The file can be opened and not be read. -/
  | notRead (cause : Text)

namespace FileRead

/-- Why a file that is missing cannot be opened. -/
def missingCause : Text := Text.ofString "no such file or directory"

/-- The message for a path that cannot be opened. -/
def openMessage (path cause : Text) : Text :=
  Text.ofString "open " ++ path ++ Text.ofString ": " ++ cause

/-- The message for a path that cannot be read. -/
def readMessage (path cause : Text) : Text :=
  Text.ofString "read " ++ path ++ Text.ofString ": " ++ cause

/-- The content of a file, or the message that says why there is none. -/
def toExcept (path : Text) : FileRead → Except Text Text
  | content data => .ok data
  | missing => .error (openMessage path missingCause)
  | notOpened cause => .error (openMessage path cause)
  | notRead cause => .error (readMessage path cause)

end FileRead

/-- Files and directories below a working directory, each by the components of its path. -/
structure FileTree where
  /-- The files with their contents. -/
  files : List (List Text × Text)
  /-- Directories that may be empty. -/
  directories : List (List Text)

namespace FileTree

/-- No files. -/
def empty : FileTree := ⟨[], []⟩

/-- The content of the file at a place. -/
def fileAt? (t : FileTree) (place : List Text) : Option Text := t.files.lookup place

/-- Whether a directory is at a place: the top, a listed one, or one above a file or directory. -/
def isDirectory (t : FileTree) (place : List Text) : Bool :=
  place.isEmpty || t.directories.any (place.isPrefixOf ·) ||
    t.files.any fun (path, _) => place.isPrefixOf path && place ≠ path

/-- Why a path cannot be looked up. -/
inductive LookupError where
  | missing
  | notDirectory

/-- Follows components from the directory at a place. All that is passed has to be a directory; the last
component need not exist. What lies above the top is not there. -/
def walk (t : FileTree) (place : List Text) : List Text → Except LookupError (List Text)
  | [] => .ok place
  | component :: rest =>
    if component = [] ∨ component = Path.here then t.walk place rest
    else if component = Path.above then
      if place = [] then .error .missing else t.walk place.dropLast rest
    else
      let next := place ++ [component]
      if rest = [] ∨ t.isDirectory next then t.walk next rest
      else if (t.fileAt? next).isSome then .error .notDirectory
      else .error .missing

/-- The place of a path. Absolute paths lead out of the tree. -/
def locate (t : FileTree) (path : Text) : Except LookupError (List Text) :=
  if path = [] ∨ Path.isAbsolute path then .error .missing else t.walk [] (Path.components path)

/-- Reads the file at a path. -/
def read (t : FileTree) (path : Text) : FileRead :=
  match t.locate path with
  | .error .missing => .missing
  | .error .notDirectory => .notOpened (Text.ofString "not a directory")
  | .ok place =>
    match t.fileAt? place with
    | some data => .content data
    | none => if t.isDirectory place then .notRead (Text.ofString "is a directory") else .missing

/-- Puts a file at a place, in the stead of a file that is there. -/
def put (t : FileTree) (place : List Text) (data : Text) : FileTree :=
  ⟨(place, data) :: t.files.filter (·.1 ≠ place), t.directories⟩

/-- Writes a file at a path. Nothing is written where a directory is, or below what is not one. -/
def write (t : FileTree) (path data : Text) : FileTree :=
  match t.locate path with
  | .error _ => t
  | .ok place => if t.isDirectory place then t else t.put place data

/-- The files by their paths, in byte order. -/
def listing (t : FileTree) : List (Text × Text) :=
  (t.files.map fun (place, data) => (Text.join [Path.slash] place, data)).mergeSort
    fun a b => decide (a.1 ≤ b.1)

/-- The tree with the given files; a path that ends in a slash is a directory. -/
def ofList (entries : List (Text × Text)) : FileTree :=
  entries.foldl (fun t (path, data) =>
    let place := (Path.components path).filter (· ≠ [])
    if path.getLast? = some Path.slash then ⟨t.files, place :: t.directories⟩ else t.put place data) empty

end FileTree

end LetScript
