import LetScript.Text.Basic

/-!
# Paths

Paths are texts whose components are divided by slashes. `clean` gives the shortest path with the same
meaning, going by the text alone, and `join` puts one path after another.
-/

namespace LetScript

namespace Path

/-- The slash. -/
def slash : UInt8 := 0x2F

/-- The component for the directory itself. -/
def here : Text := Text.ofString "."

/-- The component for the directory above. -/
def above : Text := Text.ofString ".."

/-- The components of a path: the parts between its slashes. -/
def components : Text → List Text
  | [] => [[]]
  | b :: rest =>
    match components rest with
    | [] => [[b]]
    | first :: others => if b = slash then [] :: first :: others else (b :: first) :: others

/-- Whether a path starts at the root of the file system. -/
def isAbsolute (path : Text) : Bool := path.head? = some slash

/-- Adds a component to a clean path, given as its components from the last to the first. A step up
undoes the component before it; there is nothing above the root, and a relative path keeps its steps up
at its start. -/
def push (absolute : Bool) (reversed : List Text) (component : Text) : List Text :=
  if component = [] ∨ component = here then reversed
  else if component = above then
    match reversed with
    | [] => if absolute then [] else [above]
    | last :: before => if last = above then above :: last :: before else before
  else component :: reversed

/-- The shortest path with the same meaning. -/
def clean (path : Text) : Text :=
  let absolute := isAbsolute path
  let kept := ((components path).foldl (push absolute) []).reverse
  if absolute then slash :: Text.join [slash] kept
  else if kept = [] then here
  else Text.join [slash] kept

/-- One path after another, cleaned; empty paths do not count. -/
def join (first second : Text) : Text :=
  match [first, second].filter (· ≠ []) with
  | [] => []
  | parts => clean (Text.join [slash] parts)

end Path

end LetScript
