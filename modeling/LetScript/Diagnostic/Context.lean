import LetScript.Text.Basic

/-!
# Contexts

Where something stands in a source, and the two-line layout in which a reason is reported there.
-/

namespace LetScript

/-- A place in a source. -/
structure Context where
  /-- The name of the source. -/
  source : Text
  /-- The line, counted from one. -/
  line : Int
  /-- The part of the program; empty stands for the root. -/
  part : Text
  deriving DecidableEq, Repr

namespace Context

/-- The part of the program to which all parsed code belongs. -/
def root : Text := Text.ofString "root"

/-- A place in the root part. -/
def atLine (source : Text) (line : Int) : Context := ⟨source, line, root⟩

/-- The report of a reason at a place: a header line, and the reason indented below it. -/
def report (c : Context) (reason : Text) : Text :=
  let part := if c.part = [] then root else c.part
  Text.ofString "File \"<" ++ c.source ++ Text.ofString ">\", line " ++ Text.ofInt c.line ++
    Text.ofString ", in <" ++ part ++ Text.ofString ">\n    " ++ reason

end Context

end LetScript
