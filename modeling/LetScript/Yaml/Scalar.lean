import LetScript.Yaml.Gap

/-!
# Scalars

Reading plain, quoted and block pieces of text. Each reader gives the text and the place after it, or what is
wrong with it; `start` is the line on which it starts. A plain or quoted scalar may go on over several lines:
one line end within it counts as a space, and of several all but the first are kept. A number without a name
bounds the steps of a reader, each of which passes at least one character.
-/

namespace LetScript

namespace Yaml

/-! ## White space within a scalar -/

/-- White space within a scalar. -/
structure Fold where
  /-- The blanks before the first line end. -/
  blanks : List Char
  /-- The first line end. -/
  first : List Char
  /-- The other line ends. -/
  others : List Char
  /-- Whether there is a line end. -/
  isBroken : Bool

namespace Fold

/-- No white space. -/
def empty : Fold := ⟨[], [], [], false⟩

/-- What white space within a scalar stands for. -/
def text (f : Fold) : List Char :=
  if f.isBroken then
    if f.first.head? = some '\n' then (if f.others = [] then [' '] else f.others)
    else f.first ++ f.others
  else f.blanks

end Fold

/-- The white space that follows, added to some before it. On a continued line no tab may stand before the
column `margin`. -/
def fold (start margin : Nat) : Nat → Fold → Cursor → Except Malformed (Fold × Cursor)
  | 0, f, c => .ok (f, c)
  | n + 1, f, c =>
    if isBlank c.next then
      if f.isBroken ∧ c.column < margin ∧ c.next = '\t' then .error (c.malformed start .tabContinuation)
      else
        let blanks := if f.isBroken then f.blanks else f.blanks ++ [c.next]
        fold start margin n { f with blanks := blanks } (c.skip.need 1)
    else if isBreak c.next then
      let c := c.need 2
      let mark := c.breakChar
      let f' : Fold :=
        if f.isBroken then { f with others := f.others ++ [mark] }
        else ⟨[], f.first ++ [mark], f.others, true⟩
      fold start margin n f' (c.skipLine.need 1)
    else .ok (f, c)

/-! ## Plain scalars -/

/-- The characters that end a plain scalar between brackets. -/
def isFlowChar (c : Char) : Bool :=
  c = ',' || c = '?' || c = '[' || c = ']' || c = '\x7b' || c = '\x7d'

/-- Whether a plain scalar cannot go on at a place. -/
def endsPlain (inFlow : Bool) (c : Cursor) : Bool :=
  isSpace c.next || (c.next = ':' && isSpace (c.ahead 1)) || (inFlow && isFlowChar c.next)

/-- The part of a plain scalar up to white space or its end. -/
def plainWord (inFlow : Bool) : Nat → Cursor → List Char × Cursor
  | 0, c => ([], c)
  | n + 1, c =>
    if endsPlain inFlow c then ([], c)
    else
      match plainWord inFlow n (c.skip.need 2) with
      | (word, after) => (c.next :: word, after)

/-- A plain scalar, or what follows the white space `f` within one. Outside brackets its further lines have
to start at the column `margin` or after. Also tells whether a line end stands between its end and the
place after it. -/
def plainScalar (inFlow : Bool) (start margin : Nat) :
    Nat → Fold → Cursor → Except Malformed (List Char × Bool × Cursor)
  | 0, f, c => .ok ([], f.isBroken, c)
  | n + 1, f, c => do
    let c := c.need 4
    if c.isAtDivider ∨ c.next = '#' then return ([], f.isBroken, c)
    let (word, c) := plainWord inFlow (c.left + 1) c
    let text := if word = [] then [] else f.text ++ word
    let f := if word = [] then f else .empty
    if !(isBlank c.next || isBreak c.next) then return (text, f.isBroken, c)
    let (f, c) ← fold start margin (c.left + 1) f (c.need 1)
    if !inFlow ∧ c.column < margin then return (text, f.isBroken, c)
    let (more, isBroken, after) ← plainScalar inFlow start margin n f c
    return (text ++ more, isBroken, after)

/-- Whether a plain scalar can start at a place. -/
def startsPlain (inFlow : Bool) (c : Cursor) : Bool :=
  if c.next = '-' then !isBlank (c.ahead 1)
  else if c.next = '?' || c.next = ':' then !inFlow && !isSpace (c.ahead 1)
  else !(isSpace c.next || isFlowChar c.next || "#&*!|>'\"%@\u0060".toList.contains c.next)

/-! ## Quoted scalars -/

/-- The character that a backslash and a letter stand for. -/
def simpleEscape? : Char → Option Char
  | '0' => some '\x00'
  | 'a' => some '\x07'
  | 'b' => some '\x08'
  | 't' => some '\t'
  | '\t' => some '\t'
  | 'n' => some '\n'
  | 'v' => some '\x0B'
  | 'f' => some '\x0C'
  | 'r' => some '\r'
  | 'e' => some '\x1B'
  | ' ' => some ' '
  | '"' => some '"'
  | '\'' => some '\''
  | '\\' => some '\\'
  | 'N' => some '\u0085'
  | '_' => some '\u00A0'
  | 'L' => some '\u2028'
  | 'P' => some '\u2029'
  | _ => none

/-- The number of digits after a backslash and a letter for the code of a character. -/
def codeDigits? : Char → Option Nat
  | 'x' => some 2
  | 'u' => some 4
  | 'U' => some 8
  | _ => none

/-- The number that hexadecimal digits spell. -/
def ofHex? (digits : List Char) : Option Nat :=
  (digits.mapM Text.hexValue?).map fun values => values.foldl (fun n d => 16 * n + d) 0

/-- The character that an escape stands for, and the place after it. -/
def escape (start : Nat) (c : Cursor) : Except Malformed (Char × Cursor) :=
  let letter := c.ahead 1
  let after := c.skip.skip
  match simpleEscape? letter, codeDigits? letter with
  | some x, _ => .ok (x, after.need 2)
  | none, some digits =>
    let after := after.need digits
    match ofHex? (after.rest.take digits) with
    | some n =>
      if after.left < digits then .error (after.malformed start .missingHexDigit)
      else if n.isValidChar then .ok (Char.ofNat n, (after.skipMany digits).need 2)
      else .error (after.malformed start .escapedNoCharacter)
    | none => .error (after.malformed start .missingHexDigit)
  | none, none => .error (c.malformed start .unknownEscape)

/-- The part of a quoted scalar up to white space or the closing quote. Also tells whether it ends in an
escaped line end. -/
def quotedWord (quote : Char) (start : Nat) :
    Nat → Cursor → Except Malformed (List Char × Bool × Cursor)
  | 0, c => .ok ([], false, c)
  | n + 1, c => do
    if isSpace c.next then return ([], false, c)
    if c.next = quote ∧ ¬(quote = '\'' ∧ c.ahead 1 = '\'') then return ([], false, c)
    if quote = '"' ∧ c.next = '\\' ∧ isBreak (c.ahead 1) then return ([], true, (c.need 3).skip.skipLine)
    let (x, next) ←
      if c.next = quote then pure (quote, c.skip.skip.need 2)
      else if quote = '"' ∧ c.next = '\\' then escape start c
      else pure (c.next, c.skip.need 2)
    let (word, isBroken, after) ← quotedWord quote start n next
    return (x :: word, isBroken, after)

/-- A quoted scalar after its opening quote, or what follows white space within one. -/
def quotedScalar (quote : Char) (start : Nat) : Nat → Cursor → Except Malformed (List Char × Cursor)
  | 0, c => .error (c.malformed start .missingQuote)
  | n + 1, c => do
    let c := c.need 4
    if c.isAtDivider then .error (c.malformed start .quotedDivider)
    if c.next = fileEnd then .error (c.malformed start .missingQuote)
    let (word, isBroken, c) ← quotedWord quote start (c.left + 1) c
    let c := c.need 1
    if c.next = quote then return (word, c.skip)
    let (f, c) ← fold start 0 (c.left + 1) ⟨[], [], [], isBroken⟩ c
    let (more, after) ← quotedScalar quote start n c
    return (word ++ f.text ++ more, after)

/-! ## Block scalars -/

/-- What is done about the line ends at the end of a block scalar. -/
inductive Chomping where
  /-- None is kept. -/
  | strip
  /-- One is kept. -/
  | clip
  /-- All are kept. -/
  | keep

/-- The chomping that a character asks for. -/
def chomping? : Char → Option Chomping
  | '+' => some .keep
  | '-' => some .strip
  | _ => none

/-- The indentation that follows in the header of a block scalar, zero if none does. -/
def indentation (start : Nat) (c : Cursor) : Except Malformed (Nat × Cursor) :=
  if c.next = '0' then .error (c.malformed start .zeroIndentation)
  else if Text.isAsciiDigit c.next then .ok (c.next.toNat - '0'.toNat, c.skip.need 1)
  else .ok (0, c)

/-- The chomping and the indentation in the header of a block scalar, in either order. -/
def blockOptions (start : Nat) (c : Cursor) : Except Malformed (Chomping × Nat × Cursor) := do
  match chomping? c.next with
  | some chomping =>
    let (indent, c) ← indentation start (c.skip.need 1)
    return (chomping, indent, c)
  | none =>
    let (indent, c) ← indentation start c
    match (if indent = 0 then none else chomping? c.next) with
    | some chomping => return (chomping, indent, c.skip)
    | none => return (.clip, indent, c)

/-- The header of a block scalar after its first character: options, and nothing else but a comment on the
line. -/
def blockHeader (start : Nat) (c : Cursor) : Except Malformed (Chomping × Nat × Cursor) := do
  let (chomping, indent, c) ← blockOptions start (c.need 1)
  let c := (c.need 1).passWhile isBlank
  let c := if c.next = '#' then c.passLineComment else c
  if isStop c.next then return (chomping, indent, (c.need 2).skipLine)
  else .error (c.malformed start .missingLineEnd)

/-- Passes over spaces up to a column; zero stands for no limit. -/
def passIndent (indent : Nat) : Nat → Cursor → Cursor
  | 0, c => c
  | n + 1, c =>
    if (indent = 0 ∨ c.column < indent) ∧ c.next = ' ' then passIndent indent n (c.skip.need 1) else c

/-- The empty lines of a block scalar at a place: the widest of them, their line ends and the place after
the indentation of the line that follows. -/
def blockGap (start indent : Nat) :
    Nat → Nat → List Char → Cursor → Except Malformed (Nat × List Char × Cursor)
  | 0, widest, breaks, c => .ok (widest, breaks, c)
  | n + 1, widest, breaks, c =>
    let c := passIndent indent c.left (c.need 1)
    let widest := max widest c.column
    if (indent = 0 ∨ c.column < indent) ∧ c.next = '\t' then .error (c.malformed start .tabIndentation)
    else if isBreak c.next then
      let c := c.need 2
      blockGap start indent n widest (breaks ++ [c.breakChar]) c.skipLine
    else .ok (widest, breaks, c)

/-- What joins a line of a block scalar to the one before it: `first` is the line end between them, `others`
are those of empty lines. A folded line end becomes a space, unless a line starts with a blank. -/
def blockJoint (isLiteral startsBlank : Bool) (first others : List Char) : List Char :=
  if !isLiteral && !startsBlank && first.head? = some '\n' then (if others = [] then [' '] else others)
  else first ++ others

/-- The lines of a block scalar from one of them on: their text, the last line end and those of the empty
lines after it. -/
def blockLines (isLiteral : Bool) (start indent : Nat) :
    Nat → List Char → List Char → Bool → Cursor →
      Except Malformed (List Char × List Char × List Char × Cursor)
  | 0, first, others, _, c => .ok ([], first, others, c)
  | n + 1, first, others, startedBlank, c => do
    if c.column ≠ indent ∨ c.next = fileEnd then return ([], first, others, c)
    let startsBlank := isBlank c.next
    let joint := blockJoint isLiteral (startedBlank || startsBlank) first others
    let line := c.run (!isStop ·)
    let c := (c.passWhile (!isStop ·)).need 2
    let mark := if isBreak c.next then [c.breakChar] else []
    let (_, breaks, c) ← blockGap start indent (c.left + 2) 0 [] c.skipLine
    let (more, rest) ← blockLines isLiteral start indent n mark breaks startsBlank c
    return (joint ++ line ++ more, rest)

/-- The line ends that are kept at the end of a block scalar. -/
def Chomping.kept (chomping : Chomping) (first others : List Char) : List Char :=
  match chomping with
  | strip => []
  | clip => first
  | keep => first ++ others

/-- A block scalar after its first character, within content that starts at the column `margin`. -/
def blockScalar (isLiteral : Bool) (start margin : Nat) (c : Cursor) :
    Except Malformed (List Char × Cursor) := do
  let (chomping, indentation, c) ← blockHeader start c
  let asked := if indentation = 0 then 0 else margin - 1 + indentation
  let (widest, breaks, c) ← blockGap start asked (c.left + 2) 0 [] c
  let indent := if asked = 0 then max (max widest margin) 1 else asked
  let (text, first, others, c) ← blockLines isLiteral start indent (c.left + 2) [] breaks false (c.need 1)
  return (text ++ chomping.kept first others, c)

end Yaml

end LetScript
