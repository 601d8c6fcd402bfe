import LetScript.Text.Digit
import LetScript.Yaml.Source

/-!
# Places in a document

A place in the characters of a document, with its line and column. Reading is lazy: characters are loaded
when they are first looked at, so what is wrong far behind the place does no harm.
-/

namespace LetScript

namespace Yaml

/-! ## Classes of characters -/

/-- Stands for the end of the document, which contains no such character. -/
def fileEnd : Char := '\x00'

/-- A space or a tab. -/
def isBlank (c : Char) : Bool := c = ' ' || c = '\t'

/-- A line end. -/
def isBreak (c : Char) : Bool :=
  c = '\n' || c = '\r' || c = '\u0085' || c = '\u2028' || c = '\u2029'

/-- A line end or the end of the document. -/
def isStop (c : Char) : Bool := isBreak c || c = fileEnd

/-- White space or the end of the document. -/
def isSpace (c : Char) : Bool := isBlank c || isStop c

/-- A letter, a digit, a dash or an underscore. -/
def isNameChar (c : Char) : Bool :=
  Text.isAsciiDigit c || ('A' ≤ c && c ≤ 'Z') || ('a' ≤ c && c ≤ 'z') || c = '_' || c = '-'

/-! ## Loading -/

/-- What is loaded of a document. -/
structure Window where
  /-- The character that was next when a portion was last asked for. -/
  front : Char
  /-- The number of characters that have been loaded; the end of the document counts as one each time that
  it is reached. -/
  loaded : Nat
  /-- The ends of the portions that are not loaded yet. -/
  ends : List Nat
  /-- What is wrong with the portion after these; `none` if they reach the end of the document. -/
  flaw? : Option Problem
  /-- Why a portion that was asked for cannot be loaded. -/
  failure? : Option Problem

/-- Loads portions until `target` characters are there, or the document ends. -/
def Window.load (target loaded : Nat) : List Nat → Nat × List Nat
  | [] => (loaded + 1, [])
  | last :: rest => if target ≤ last then (last, rest) else load target last rest

/-- A place in a document. -/
structure Cursor where
  /-- The characters from here on. -/
  rest : List Char
  /-- The number of characters before it. -/
  index : Nat
  /-- The number of characters of the document. -/
  extent : Nat
  /-- The line, counted from one. -/
  line : Nat
  /-- The number of characters before it on its line. -/
  column : Nat
  /-- Whether only blanks stand between here and the line end before. -/
  isAfterBreak : Bool
  /-- What is loaded. -/
  window : Window

namespace Cursor

/-- The start of a document. -/
def start (s : Source) : Cursor :=
  ⟨s.chars, 0, s.chars.length, 1, 0, false, ⟨fileEnd, 0, s.ends, s.flaw?, none⟩⟩

/-- The number of characters from here on. -/
def left (c : Cursor) : Nat := c.extent - c.index

/-- The character `k` places from here. -/
def ahead (c : Cursor) (k : Nat) : Char := c.rest.getD k fileEnd

/-- The next character. -/
def next (c : Cursor) : Char := c.ahead 0

/-- The same place with at least `n` characters loaded. -/
def need (n : Nat) (c : Cursor) : Cursor :=
  let target := c.index + n
  let w := c.window
  if target ≤ w.loaded then c
  else
    match Window.load target w.loaded w.ends with
    | (loaded, ends) =>
      let isShort := w.ends.all (· < target)
      { c with window := ⟨c.next, loaded, ends, w.flaw?, if isShort then w.flaw? else w.failure?⟩ }

/-- A problem at a place with something that starts on a line. If something could not be loaded, that is the
problem. -/
def malformed (c : Cursor) (start : Nat) (problem : Problem) : Malformed :=
  match c.window.failure? with
  | some failure => ⟨none, failure⟩
  | none => ⟨Malformed.lineOf start c.line, problem⟩

/-- The place after the next character, taken as part of a line. -/
def skip (c : Cursor) : Cursor :=
  { c with
    rest := c.rest.tail
    index := c.index + 1
    column := c.column + 1
    isAfterBreak := c.isAfterBreak && isBlank c.next }

/-- The place after the next `n` characters. -/
def skipMany : Nat → Cursor → Cursor
  | 0, c => c
  | n + 1, c => skipMany n c.skip

/-- The number of characters of the line end that follows. -/
def breakLength (c : Cursor) : Nat :=
  if c.next = '\r' ∧ c.ahead 1 = '\n' then 2 else if isBreak c.next then 1 else 0

/-- The place after the line end that follows, if one does. -/
def skipLine (c : Cursor) : Cursor :=
  let n := c.breakLength
  if n = 0 then c
  else
    { c with
      rest := c.rest.drop n
      index := c.index + n
      line := c.line + 1
      column := 0
      isAfterBreak := true }

/-- What the line end that follows counts as within a scalar. -/
def breakChar (c : Cursor) : Char :=
  if c.next = '\u2028' ∨ c.next = '\u2029' then c.next else '\n'

/-- Passes over characters of a class, at most `n`. -/
def passMany (inClass : Char → Bool) : Nat → Cursor → Cursor
  | 0, c => c
  | n + 1, c => if inClass c.next then passMany inClass n (c.skip.need 1) else c

/-- The place after the characters of a class that follow. -/
def passWhile (inClass : Char → Bool) (c : Cursor) : Cursor := passMany inClass c.left c

/-- The characters of a class that follow. -/
def run (inClass : Char → Bool) (c : Cursor) : List Char := c.rest.takeWhile inClass

/-- Whether three marks and white space follow at the start of a line. -/
def isAtMarks (mark : Char) (c : Cursor) : Bool :=
  c.column = 0 && c.next = mark && c.ahead 1 = mark && c.ahead 2 = mark && isSpace (c.ahead 3)

/-- Whether a line that divides documents follows. -/
def isAtDivider (c : Cursor) : Bool := c.isAtMarks '-' || c.isAtMarks '.'

end Cursor

end Yaml

end LetScript
