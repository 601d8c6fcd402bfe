import LetScript.Yaml.Cursor

/-!
# White space and comments

What may stand between the tokens of a document. A comment reaches to the end of its line. Comments that
follow one another are passed over together, whatever blanks stand before them; elsewhere a tab is no
indentation.
-/

namespace LetScript

namespace Yaml

namespace Cursor

/-- How far a comment is looked for behind a token or another comment. -/
def commentReach : Nat := 512

/-- Passes over characters and line ends up to an index, in at most `n` steps. -/
def passTo (index : Nat) : Nat → Cursor → Cursor
  | 0, c => c
  | n + 1, c =>
    let c := c.need 1
    if index ≤ c.index then c
    else passTo index n (if isBreak c.next then (c.need 2).skipLine else c.skip)

/-- The place at the end of the line on which a comment starts `n` characters from here. -/
def passComment (n : Nat) (c : Cursor) : Cursor :=
  (passTo (c.index + n) (n + 1) c).passWhile (!isStop ·)

/-- The place after the comment that follows a token on its line, if there is one. -/
def passLineComment (c : Cursor) : Cursor :=
  if c.isAfterBreak then c
  else
    let blanks := (c.run isBlank).length
    let c := c.need (min (blanks + 1) commentReach)
    if blanks < commentReach ∧ c.ahead blanks = '#' then c.passComment blanks else c

/-- The number of characters from the end of a comment to the next thing that is neither a blank nor a
plain line end. -/
def commentGap (c : Cursor) : Nat :=
  if c.next = '\n' ∨ c.next = '\r' then
    1 + (c.rest.tail.takeWhile fun x => isBlank x || x = '\n' || x = '\r').length
  else 1

/-- The place at the end of the last of the comments that follow one another, at most `n`. The first of
them starts here. -/
def passCommentsMany : Nat → Cursor → Cursor
  | 0, c => c
  | n + 1, c =>
    let c := c.passComment 0
    let gap := c.commentGap
    let c := c.need (min (gap + 1) commentReach)
    if gap < commentReach ∧ c.ahead gap = '#' then passCommentsMany n (passTo (c.index + gap) (gap + 1) c) else c

/-- The place at the end of the last of the comments that follow one another. -/
def passComments (c : Cursor) : Cursor := passCommentsMany (c.left + 1) c

/-- The place of the next token, and whether a key may stand there, in at most `n` steps. Between brackets
and where no key may stand, tabs count as spaces; outside brackets a key may stand on a new line. A byte
order mark at the front of what is loaded makes each line start one character later. -/
def toTokenMany (inFlow : Bool) : Nat → Bool → Cursor → Cursor × Bool
  | 0, mayBeKey, c => (c, mayBeKey)
  | n + 1, mayBeKey, c =>
    let c := c.need 1
    let c := if c.column = 0 ∧ c.window.front = '\uFEFF' then c.skip else c
    let c := (c.need 1).passWhile fun x => x = ' ' || (x = '\t' && (inFlow || !mayBeKey))
    let c := if c.next = '#' then c.passComments else c
    if isBreak c.next then toTokenMany inFlow n (mayBeKey || !inFlow) (c.need 2).skipLine
    else (c, mayBeKey)

/-- The place of the next token, and whether a key may stand there. -/
def toToken (inFlow mayBeKey : Bool) (c : Cursor) : Cursor × Bool :=
  toTokenMany inFlow (c.left + 1) mayBeKey c

end Cursor

end Yaml

end LetScript
