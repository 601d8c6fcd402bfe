import LetScript.Yaml.Property
import LetScript.Yaml.Scalar

/-!
# Splitting a document into tokens

A lexer holds the tokens that have been read and not yet taken, and reads more when they are asked for. That a
token is the key of a pair shows only at the colon after it, so the lexer remembers for each level of
brackets the token that may turn out to be a key, and puts the mark of a key before it later. A key stands on
one line and is at most 1024 characters long. Indentation shows as tokens that start and end collections.
-/

namespace LetScript

namespace Yaml

/-! ## State -/

/-- A token that may be a key. -/
structure Candidate where
  /-- The number of the token. -/
  number : Nat
  /-- The place of the token. -/
  start : Cursor
  /-- Whether it has to be a key, since it stands where the keys of a mapping do. -/
  isRequired : Bool
  /-- Whether it holds back the tokens from it on until it is decided. -/
  holdsBack : Bool

/-- A level of brackets. -/
structure Level where
  /-- The number of the latest candidate or, before there is one, of the token that opened the level. -/
  number : Nat
  /-- The token that may be a key. -/
  candidate : Option Candidate

/-- The state of reading tokens. -/
structure Lexer where
  /-- The place after the last token. -/
  cursor : Cursor
  /-- The tokens read and not yet taken. -/
  queue : List Token
  /-- The number of tokens taken. -/
  taken : Nat
  /-- The least column of what belongs to the innermost block collection. -/
  margin : Nat
  /-- The same for the collections around it, inner ones first. -/
  margins : List Nat
  /-- The innermost level of brackets. -/
  level : Level
  /-- The levels around it, inner ones first. -/
  outer : List Level
  /-- Whether a key may start at the place. -/
  mayBeKey : Bool

/-- The greatest number of characters in a key. -/
def Candidate.reach : Nat := 1024

/-- Whether a candidate can no longer be a key once reading has come to a place. -/
def Candidate.isStale (k : Candidate) (c : Cursor) : Bool :=
  k.start.line < c.line || k.start.index + reach < c.index

namespace Lexer

/-- The state before anything has been read. -/
def start (s : Source) : Lexer :=
  { cursor := .start s, queue := [], taken := 0, margin := 0, margins := [], level := ⟨0, none⟩,
    outer := [], mayBeKey := true }

/-- Whether the place is between brackets. -/
def inFlow (l : Lexer) : Bool := !l.outer.isEmpty

/-- The number of the next token. -/
def nextNumber (l : Lexer) : Nat := l.taken + l.queue.length

/-- The greatest depth of collections within one another. -/
def maxDepth : Nat := 10000

/-! ## Tokens -/

/-- Adds a token that starts at a place. -/
def push (kind : TokenKind) (place : Cursor) (l : Lexer) : Lexer :=
  { l with queue := l.queue ++ [⟨kind, place.line⟩] }

/-- Puts a token before the one with a number. -/
def insertAt (number : Nat) (kind : TokenKind) (place : Cursor) (l : Lexer) : Lexer :=
  let i := number - l.taken
  { l with queue := l.queue.take i ++ ⟨kind, place.line⟩ :: l.queue.drop i }

/-- Goes on at a place. -/
def moveTo (c : Cursor) (l : Lexer) : Lexer := { l with cursor := c }

/-- Allows or forbids a key at the place. -/
def allowKey (b : Bool) (l : Lexer) : Lexer := { l with mayBeKey := b }

/-- Adds a token of `n` characters at the place and goes on after it. -/
def pushHere (kind : TokenKind) (n : Nat) (l : Lexer) : Lexer :=
  (l.push kind l.cursor).moveTo (l.cursor.skipMany n)

/-! ## Candidates -/

/-- A problem at the place with something that starts on a line. -/
def malformed (l : Lexer) (start : Nat) (problem : Problem) : Malformed := l.cursor.malformed start problem

/-- A problem at the place. -/
def malformedHere (l : Lexer) (problem : Problem) : Malformed := l.malformed l.cursor.line problem

/-- Gives up the candidate of the innermost level; one that has to be a key cannot be given up. -/
def dropCandidate (l : Lexer) : Except Malformed Lexer :=
  match l.level.candidate with
  | none => .ok l
  | some k =>
    if k.isRequired then .error (l.malformed k.start.line .missingColon)
    else .ok { l with level := ⟨l.level.number, none⟩ }

/-- Makes the next token a candidate if a key may start here. -/
def addCandidate (l : Lexer) : Except Malformed Lexer := do
  if !l.mayBeKey then return l
  let isRequired := !l.inFlow && l.margin = l.cursor.column + 1
  let l ← l.dropCandidate
  return { l with level := ⟨l.nextNumber, some ⟨l.nextNumber, l.cursor, isRequired, true⟩⟩ }

/-- Opens a level of brackets. -/
def openLevel (l : Lexer) : Except Malformed Lexer :=
  if l.outer.length < maxDepth then
    .ok { l with level := ⟨l.nextNumber, none⟩, outer := l.level :: l.outer }
  else .error (l.malformedHere (.tooDeep maxDepth))

/-- Closes a level of brackets, if one is open. The candidate that opened a level in which there has been no
candidate no longer holds back tokens. -/
def closeLevel (l : Lexer) : Lexer :=
  match l.outer with
  | [] => l
  | level :: outer =>
    let release (k : Candidate) : Candidate :=
      if k.number = l.level.number then { k with holdsBack := false } else k
    { l with level := ⟨level.number, level.candidate.map release⟩, outer := outer }

/-! ## Indentation -/

/-- Opens a block collection at a column, if it stands to the right of those that are open. Its first token
is put before the one with a number, or added. -/
def openBlock (kind : TokenKind) (place : Cursor) (before : Option Nat) (l : Lexer) :
    Except Malformed Lexer :=
  if l.inFlow ∨ place.column < l.margin then .ok l
  else if l.margins.length < maxDepth then
    let l := { l with margin := place.column + 1, margins := l.margin :: l.margins }
    .ok (match before with
      | none => l.push kind place
      | some number => l.insertAt number kind place)
  else .error (l.malformedHere (.tooDeep maxDepth))

/-- Closes the block collections with the given margins that lie beyond a column margin, outside brackets. -/
def closeBlocksFrom (target : Nat) (place : Cursor) : List Nat → Lexer → Lexer
  | [], l => l
  | margin :: margins, l =>
    if target < l.margin then
      closeBlocksFrom target place margins ({ l with margin := margin, margins := margins }.push .blockEnd place)
    else l

/-- Closes the block collections that lie beyond a column margin; their ends are at a place. -/
def closeBlocks (target : Nat) (place : Cursor) (l : Lexer) : Lexer :=
  if l.inFlow then l else closeBlocksFrom target place l.margins l

/-- Closes all block collections at the place. -/
def closeAll (l : Lexer) : Lexer := l.closeBlocks 0 l.cursor

/-! ## Reading a token -/

/-- The end of the file, on a line of its own. -/
def readFileEnd (l : Lexer) : Except Malformed Lexer := do
  let c := l.cursor
  let l := if c.column = 0 then l else l.moveTo { c with column := 0, line := c.line + 1 }
  let l ← l.closeAll.dropCandidate
  return (l.allowKey false).push .fileEnd l.cursor

/-- A directive. -/
def readDirective (l : Lexer) : Except Malformed Lexer := do
  let l ← l.closeAll.dropCandidate
  let (kind, after) ← directive l.cursor.line l.cursor.skip
  return ((l.allowKey false).push kind l.cursor).moveTo after

/-- A line that starts or ends a document. -/
def readDivider (kind : TokenKind) (l : Lexer) : Except Malformed Lexer := do
  let l ← l.closeAll.dropCandidate
  return (l.allowKey false).pushHere kind 3

/-- An opening bracket. -/
def readOpening (kind : TokenKind) (l : Lexer) : Except Malformed Lexer := do
  let l ← l.addCandidate
  let l ← l.openLevel
  return (l.allowKey true).pushHere kind 1

/-- A closing bracket. -/
def readClosing (kind : TokenKind) (l : Lexer) : Except Malformed Lexer := do
  let l ← l.dropCandidate
  return (l.closeLevel.allowKey false).pushHere kind 1

/-- A comma between brackets. -/
def readFlowEntry (l : Lexer) : Except Malformed Lexer := do
  let l ← l.dropCandidate
  return (l.allowKey true).pushHere .flowEntry 1

/-- The dash of an item. Between brackets it is a token that fits nowhere. -/
def readBlockEntry (l : Lexer) : Except Malformed Lexer := do
  if !l.inFlow ∧ !l.mayBeKey then .error (l.malformedHere .misplacedItem)
  let l ← l.openBlock .blockSequenceStart l.cursor none
  let l ← l.dropCandidate
  return (l.allowKey true).pushHere .blockEntry 1

/-- The question mark of a key. -/
def readKey (l : Lexer) : Except Malformed Lexer := do
  if !l.inFlow ∧ !l.mayBeKey then .error (l.malformedHere .misplacedKey)
  let l ← l.openBlock .blockMappingStart l.cursor none
  let l ← l.dropCandidate
  return (l.allowKey (!l.inFlow)).pushHere .key 1

/-- The colon after a candidate, which is a key therefore. -/
def readValueOf (k : Candidate) (l : Lexer) : Except Malformed Lexer := do
  let l ← (l.insertAt k.number .key k.start).openBlock .blockMappingStart k.start (some k.number)
  return ({ l with level := ⟨l.level.number, none⟩ }.allowKey false).pushHere .value 1

/-- A colon that does not follow a candidate. -/
def readLoneValue (l : Lexer) : Except Malformed Lexer := do
  if !l.inFlow ∧ !l.mayBeKey then .error (l.malformedHere .misplacedValue)
  let l ← l.openBlock .blockMappingStart l.cursor none
  return (l.allowKey (!l.inFlow)).pushHere .value 1

/-- The colon of a value. -/
def readValue (l : Lexer) : Except Malformed Lexer :=
  match l.level.candidate with
  | none => l.readLoneValue
  | some k =>
    if k.isStale l.cursor then l.dropCandidate.bind readLoneValue else l.readValueOf k

/-- A token that may be a key and after which none may start, by its kind and the place after it. -/
def readNode (read : Cursor → Except Malformed (TokenKind × Cursor)) (l : Lexer) : Except Malformed Lexer := do
  let l ← l.addCandidate
  let (kind, after) ← read l.cursor
  return ((l.allowKey false).push kind l.cursor).moveTo after

/-- An anchor or, of the same form, a reference to one. -/
def readAnchor (toKind : Text → TokenKind) : Lexer → Except Malformed Lexer :=
  readNode fun c => do
    let (name, after) ← anchorName c.line c.skip
    return (toKind name, after)

/-- A quoted scalar. -/
def readQuoted (quote : Char) : Lexer → Except Malformed Lexer :=
  readNode fun c => do
    let (text, after) ← quotedScalar quote c.line (c.left + 1) c.skip
    return (.scalar false (textOf text), after)

/-- A block scalar. -/
def readBlockScalar (isLiteral : Bool) (l : Lexer) : Except Malformed Lexer := do
  let l ← l.dropCandidate
  let (text, after) ← blockScalar isLiteral l.cursor.line l.margin l.cursor.skip
  return ((l.allowKey true).push (.scalar false (textOf text)) l.cursor).moveTo after

/-- A plain scalar. A key may start after it if it is followed by a line end. -/
def readPlain (l : Lexer) : Except Malformed Lexer := do
  let l ← l.addCandidate
  let c := l.cursor
  let (text, isBroken, after) ← plainScalar l.inFlow c.line l.margin (c.left + 1) .empty c
  return ((l.allowKey isBroken).push (.scalar true (textOf text)) c).moveTo after

/-- A token within a document. -/
def readContent (l : Lexer) : Except Malformed Lexer :=
  let c := l.cursor
  let x := c.next
  let isMark := isSpace (c.ahead 1)
  if x = '[' then l.readOpening .flowSequenceStart
  else if x = '\x7b' then l.readOpening .flowMappingStart
  else if x = ']' then l.readClosing .flowSequenceEnd
  else if x = '\x7d' then l.readClosing .flowMappingEnd
  else if x = ',' then l.readFlowEntry
  else if x = '-' ∧ isMark then l.readBlockEntry
  else if x = '?' ∧ (l.inFlow ∨ isMark) then l.readKey
  else if x = ':' ∧ (l.inFlow ∨ isMark) then l.readValue
  else if x = '*' then l.readAnchor fun name => .reference name l.cursor.index
  else if x = '&' then l.readAnchor .anchor
  else if x = '!' then l.readNode tagProperty
  else if x = '|' ∧ !l.inFlow then l.readBlockScalar true
  else if x = '>' ∧ !l.inFlow then l.readBlockScalar false
  else if x = '\'' ∨ x = '"' then l.readQuoted x
  else if startsPlain l.inFlow c then l.readPlain
  else .error (l.malformedHere .unknownToken)

/-- Passes over the comment after a token on its line. A comment after the dash of an item belongs to what
follows. -/
def passLineComment (l : Lexer) : Lexer :=
  match l.queue.getLast? with
  | some ⟨.blockEntry, _⟩ => l
  | _ => l.moveTo l.cursor.passLineComment

/-- Reads a token at the place. -/
def readHere (l : Lexer) : Except Malformed Lexer :=
  let c := l.cursor
  if c.next = fileEnd then l.readFileEnd
  else if c.column = 0 ∧ c.next = '%' then l.readDirective
  else if c.isAtMarks '-' then l.readDivider .documentStart
  else if c.isAtMarks '.' then l.readDivider .documentEnd
  else l.readContent.map passLineComment

/-- Reads the next token, with the tokens that its indentation calls for. -/
def read (l : Lexer) : Except Malformed Lexer := do
  let place := l.cursor
  let (c, mayBeKey) := (place.need 1).toToken l.inFlow l.mayBeKey
  let l := ((l.moveTo (c.need 4)).allowKey mayBeKey).closeBlocks (c.column + 1) place
  let l ← l.readHere
  match l.cursor.window.failure? with
  | some failure => .error ⟨none, failure⟩
  | none => return l

/-! ## Taking tokens -/

/-- The candidate that holds back the first token. -/
def holder? (l : Lexer) : Option Candidate :=
  (l.level :: l.outer).findSome? fun level =>
    level.candidate.filter fun k => k.number = l.taken && k.holdsBack

/-- The number of tokens that are known beyond the first before it is taken. -/
def lookahead : Nat := 2

/-- Whether more tokens have to be read before the first can be taken. A candidate that has to be a key and
can no longer be one is a problem. -/
def needsMore (l : Lexer) : Except Malformed Bool :=
  if l.queue.length ≤ lookahead then .ok true
  else
    match l.holder? with
    | none => .ok false
    | some k =>
      if !k.isStale l.cursor then .ok true
      else if k.isRequired then .error (l.malformed k.start.line .missingColon)
      else .ok false

/-- Reads tokens until the first can be taken, in at most some steps. -/
def prepare : Nat → Lexer → Except Malformed Lexer
  | 0, l => .ok l
  | n + 1, l => do
    if ← l.needsMore then prepare n (← l.read) else return l

/-- The first token, and the state in which it can be taken. -/
def peek (l : Lexer) : Except Malformed (Token × Lexer) := do
  let l ← l.prepare (l.cursor.left + 8)
  return (l.queue.headD ⟨.fileEnd, l.cursor.line⟩, l)

/-- Takes the first token. -/
def take (l : Lexer) : Lexer := { l with queue := l.queue.tail, taken := l.taken + 1 }

end Lexer

end Yaml

end LetScript
