import LetScript.Text.Basic

/-!
# Tokens of a document

The pieces of a document between its white space, and the tokens that stand for its layout: where a block
collection starts and ends, and where the key of a pair starts.
-/

namespace LetScript

namespace Yaml

/-- What a token is. -/
inductive TokenKind where
  /-- The end of the file. -/
  | fileEnd
  /-- A line that tells the version of the notation. -/
  | version (major minor : Nat)
  /-- A line that gives tags with a handle their beginning. -/
  | tagHandle (handle beginning : Text)
  /-- Three dashes. -/
  | documentStart
  /-- Three points. -/
  | documentEnd
  | blockSequenceStart
  | blockMappingStart
  | blockEnd
  | flowSequenceStart
  | flowSequenceEnd
  | flowMappingStart
  | flowMappingEnd
  /-- A dash before an item of a block sequence. -/
  | blockEntry
  /-- A comma. -/
  | flowEntry
  | key
  | value
  /-- A reference to the part with a name, and the number of characters before it. -/
  | reference (name : Text) (place : Nat)
  /-- The name of the part that follows. -/
  | anchor (name : Text)
  /-- A tag by its handle and the rest of it. -/
  | tag (handle suffix : Text)
  /-- A scalar, and whether it is neither quoted nor a block. -/
  | scalar (isPlain : Bool) (text : Text)
  deriving DecidableEq, Repr

/-- A token and where it starts. -/
structure Token where
  /-- What it is. -/
  kind : TokenKind
  /-- Its line. -/
  line : Nat
  deriving Repr

end Yaml

end LetScript
