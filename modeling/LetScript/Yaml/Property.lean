import LetScript.Yaml.Gap
import LetScript.Yaml.Token

/-!
# Anchors, tags and directives

What can be said about a part of a document before it starts, and about a document before its first
line. Each reader gives what it has read and the place after it, or what is wrong with it; `start` is the line
on which it starts.
-/

namespace LetScript

namespace Yaml

/-- Characters as a text. -/
def textOf (chars : List Char) : Text := chars.flatMap Text.ofChar

/-! ## Anchors -/

/-- Whether the name of an anchor may end before a character. -/
def endsAnchor (c : Char) : Bool := isSpace c || "?:,]\x7d%@\u0060".toList.contains c

/-- The name of an anchor after its first character. -/
def anchorName (start : Nat) (c : Cursor) : Except Malformed (Text × Cursor) :=
  let c := c.need 1
  let name := c.run isNameChar
  let after := c.passWhile isNameChar
  if name = [] ∨ !endsAnchor after.next then .error (after.malformed start .missingName)
  else .ok (textOf name, after)

/-! ## Tags -/

/-- The characters of a tag, next to those of names. -/
def isTagChar (c : Char) : Bool := isNameChar c || ";/?:@&=+$,.!~*'()[]%".toList.contains c

/-- The byte that a percent sign and two digits at a place stand for. -/
def escapedByte? (c : Cursor) : Option UInt8 :=
  if c.next = '%' then
    match Text.hexValue? (c.ahead 1), Text.hexValue? (c.ahead 2) with
    | some high, some low => some (UInt8.ofNat (16 * high + low))
    | _, _ => none
  else none

/-- Escaped bytes that go on with the code of a character. -/
def escapedRest (start : Nat) : Nat → Cursor → Except Malformed (Text × Cursor)
  | 0, c => .ok ([], c)
  | n + 1, c => do
    let c := c.need 3
    match escapedByte? c with
    | none => .error (c.malformed start .missingEscapedByte)
    | some b =>
      if !isTrailing b then .error (c.malformed start .escapedTrail)
      let (bytes, after) ← escapedRest start n (c.skipMany 3)
      return (b :: bytes, after)

/-- The escaped bytes of a character. -/
def escapedChar (start : Nat) (c : Cursor) : Except Malformed (Text × Cursor) := do
  let c := c.need 3
  match escapedByte? c with
  | none => .error (c.malformed start .missingEscapedByte)
  | some b =>
    if utf8Width b = 0 then .error (c.malformed start .escapedLead)
    let (bytes, after) ← escapedRest start (utf8Width b - 1) (c.skipMany 3)
    return (b :: bytes, after)

/-- The characters of a tag that follow, in at most some steps. -/
def tagText (start : Nat) : Nat → Cursor → Except Malformed (Text × Cursor)
  | 0, c => .ok ([], c)
  | n + 1, c => do
    if !isTagChar c.next then return ([], c)
    let (bytes, after) ←
      if c.next = '%' then escapedChar start c else pure (Text.ofChar c.next, c.skip)
    let (more, last) ← tagText start n (after.need 1)
    return (bytes ++ more, last)

/-- The rest of a tag after some of its beginning has been read; one of the two must not be empty. -/
def tagRest (start : Nat) (hasBeginning : Bool) (c : Cursor) : Except Malformed (Text × Cursor) := do
  let (text, after) ← tagText start (c.left + 1) (c.need 1)
  if text = [] ∧ !hasBeginning then .error (after.malformed start .missingTag)
  return (text, after)

/-- The exclamation mark. -/
def bang : Text := Text.ofString "!"

/-- A handle at a place: an exclamation mark, a name, and a second exclamation mark if there is one. Also
tells whether there is. -/
def tagHandle (start : Nat) (c : Cursor) : Except Malformed (List Char × Bool × Cursor) :=
  let c := c.need 1
  if c.next = '!' then
    let c := c.skip.need 1
    let name := c.run isNameChar
    let after := c.passWhile isNameChar
    if after.next = '!' then .ok ('!' :: name ++ ['!'], true, after.skip)
    else .ok ('!' :: name, false, after)
  else .error (c.malformed start .missingBang)

/-- The handle and the rest of a tag at its exclamation mark: a tag in angle brackets has no handle, one
without a handle of its own has the plain handle. A single mark is a tag without handle. -/
def tagParts (start : Nat) (c : Cursor) : Except Malformed ((Text × Text) × Cursor) := do
  if c.ahead 1 = '<' then
    let (suffix, after) ← tagRest start false c.skip.skip
    if after.next ≠ '>' then .error (after.malformed start .missingAngle)
    return (([], suffix), after.skip)
  else
    let (handle, isClosed, after) ← tagHandle start c
    let (more, last) ← tagRest start (!isClosed) after
    if isClosed then return ((textOf handle, more), last)
    let suffix := textOf handle.tail ++ more
    return (if suffix = [] then ([], bang) else (bang, suffix), last)

/-- A tag at its exclamation mark. -/
def tagProperty (c : Cursor) : Except Malformed (TokenKind × Cursor) := do
  let ((handle, suffix), after) ← tagParts c.line (c.need 2)
  let after := after.need 1
  if !isSpace after.next then .error (after.malformed c.line .missingSpace)
  return (.tag handle suffix, after)

/-! ## Directives -/

/-- A number of at most two digits. -/
def versionNumber (start : Nat) (c : Cursor) : Except Malformed (Nat × Cursor) :=
  let digits := c.run Text.isAsciiDigit
  let after := (c.need 1).passWhile Text.isAsciiDigit
  if digits = [] then .error (after.malformed start .missingVersion)
  else if 2 < digits.length then .error (after.malformed start .longVersion)
  else .ok (digits.foldl (fun n x => 10 * n + (x.toNat - '0'.toNat)) 0, after)

/-- The version in a directive. -/
def versionDirective (start : Nat) (c : Cursor) : Except Malformed (TokenKind × Cursor) := do
  let (major, c) ← versionNumber start ((c.need 1).passWhile isBlank)
  if c.next ≠ '.' then .error (c.malformed start .missingVersionPoint)
  let (minor, after) ← versionNumber start (c.skip.need 1)
  return (.version major minor, after)

/-- The handle and the beginning of tags in a directive. -/
def handleDirective (start : Nat) (c : Cursor) : Except Malformed (TokenKind × Cursor) := do
  let (handle, isClosed, c) ← tagHandle start ((c.need 1).passWhile isBlank)
  if !isClosed ∧ handle ≠ ['!'] then .error (c.malformed start .missingBang)
  let c := c.need 1
  if !isBlank c.next then .error (c.malformed start .missingBlank)
  let (beginning, after) ← tagRest start false (c.passWhile isBlank)
  let after := after.need 1
  if !isSpace after.next then .error (after.malformed start .missingSpace)
  return (.tagHandle (textOf handle) beginning, after)

/-- The name of a directive. -/
def directiveName (start : Nat) (c : Cursor) : Except Malformed (List Char × Cursor) :=
  let c := c.need 1
  let name := c.run isNameChar
  let after := c.passWhile isNameChar
  if name = [] then .error (after.malformed start .missingDirectiveName)
  else if !isSpace after.next then .error (after.malformed start .directiveNameCharacter)
  else .ok (name, after)

/-- A directive after its percent sign, and the place on the line after it. -/
def directive (start : Nat) (c : Cursor) : Except Malformed (TokenKind × Cursor) := do
  let (name, c) ← directiveName start c
  let (kind, c) ←
    if name = "YAML".toList then versionDirective start c
    else if name = "TAG".toList then handleDirective start c
    else .error (c.malformed start .unknownDirective)
  let c := (c.need 1).passWhile isBlank
  let c := if c.next = '#' then c.passWhile (!isStop ·) else c
  if !isStop c.next then .error (c.malformed start .missingLineEnd)
  return (kind, (c.need 2).skipLine)

end Yaml

end LetScript
