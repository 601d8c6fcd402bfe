import LetScript.Diagnostic.Basic
import LetScript.Text.Digit
import LetScript.Text.Letter
import LetScript.Token.Basic

/-!
# Splitting a source into tokens

A source is a sequence of pieces: gaps (white space and comments) and tokens. `piece` tells what the next
piece is and how far it reaches; `scan` repeats this to the end of the source, counting lines and bytes.
A string and a comment may hold any bytes; elsewhere every byte has to belong to a character, and the
replacement character counts as a byte that does not.
-/

namespace LetScript

namespace Token

/-- What a piece of source amounts to. -/
inductive Piece where
  /-- White space or a comment. -/
  | gap
  /-- A token of a category, with the value of its literal. -/
  | token (kind : Kind) (literal : Literal)

/-- The characters that are tokens by themselves, whatever follows. -/
def single? : Char → Option Kind
  | '(' => some .leftParen
  | ')' => some .rightParen
  | '\x7b' => some .leftBrace
  | '\x7d' => some .rightBrace
  | ',' => some .comma
  | '.' => some .dot
  | '-' => some .minus
  | '+' => some .plus
  | ';' => some .semicolon
  | '*' => some .star
  | _ => none

/-- The characters that form a longer token with an equals sign: the category without and with it. -/
def paired? : Char → Option (Kind × Kind)
  | '!' => some (.bang, .bangEqual)
  | '=' => some (.equal, .equalEqual)
  | '<' => some (.less, .lessEqual)
  | '>' => some (.greater, .greaterEqual)
  | _ => none

/-- White space between tokens. -/
def isGapChar (c : Char) : Bool := c = ' ' ∨ c = '\r' ∨ c = '\t' ∨ c = '\n'

/-- A character that may continue a word. -/
def isWordChar (c : Char) : Bool := Text.isLetter c || Text.isDigit c

/-- The longest run of characters of a class at the start of the glyphs. -/
def leadingChars (inClass : Char → Bool) : List Glyph → List Char
  | .char c :: rest => if inClass c then c :: leadingChars inClass rest else []
  | _ => []

/-- The digits after the point of a number whose whole part ends before `rest`: none, unless a point and
a digit follow. -/
def fractionDigits : List Glyph → List Char
  | .char '.' :: rest => leadingChars Text.isAsciiDigit rest
  | _ => []

/-- A number that starts with the digit `c`. -/
def numberPiece (c : Char) (rest : List Glyph) : Piece × Nat :=
  let whole := leadingChars Text.isAsciiDigit rest
  let part := fractionDigits (rest.drop whole.length)
  let reach := if part = [] then whole.length else whole.length + 1 + part.length
  (.token .number (.number (numberOfDigits (c :: whole) part)), reach)

/-- A word that starts with the letter `c`. -/
def wordPiece (c : Char) (rest : List Glyph) : Piece × Nat :=
  let others := leadingChars isWordChar rest
  (.token (.ofWord ((c :: others).flatMap Text.ofChar)) .none, others.length)

/-- A string whose opening quote stands before `rest`. -/
def stringPiece (rest : List Glyph) : Except Fault (Piece × Nat) :=
  let body := rest.takeWhile (· ≠ .char '"')
  if body.length < rest.length then
    .ok (.token .string (.text (body.flatMap Glyph.bytes)), body.length + 1)
  else .error .unterminatedString

/-- A slash or, if a second one follows, a comment up to the end of its line. -/
def slashPiece : List Glyph → Piece × Nat
  | .char '/' :: rest => (.gap, 1 + (rest.takeWhile (· ≠ .char '\n')).length)
  | _ => (.token .slash .none, 0)

/-- The piece of source that starts with the glyph `g` at a byte offset, and how many of the glyphs that
follow belong to it. -/
def piece (offset : Nat) (g : Glyph) (rest : List Glyph) : Except Fault (Piece × Nat) :=
  match g with
  | .stray _ => .error (.invalidEncoding offset)
  | .char c =>
    match single? c, paired? c with
    | some kind, _ => .ok (.token kind .none, 0)
    | none, some (short, long) =>
      if rest.head? = some (.char '=') then .ok (.token long .none, 1) else .ok (.token short .none, 0)
    | none, none =>
      if c = '/' then .ok (slashPiece rest)
      else if c = '"' then stringPiece rest
      else if isGapChar c then .ok (.gap, 0)
      else if Text.isAsciiDigit c then .ok (numberPiece c rest)
      else if Text.isLetter c then .ok (wordPiece c rest)
      else if c = '\uFFFD' then .error (.invalidEncoding offset)
      else .error (.unexpectedCharacter c)

/-- The tokens of a piece that starts on a line: itself or, for a gap, none. -/
def Piece.tokens (p : Piece) (line : Nat) (glyphs : List Glyph) : List Token :=
  match p with
  | gap => []
  | token kind literal => [⟨kind, glyphs.flatMap Glyph.bytes, literal, line⟩]

/-- The number of line feeds among glyphs. -/
def lineFeeds (glyphs : List Glyph) : Nat := glyphs.count (.char '\n')

/-- The tokens of the glyphs that start on a line at a byte offset, up to and with the end of input. -/
def scanFrom (source : Text) (line offset : Nat) : List Glyph → Except Diagnostic (List Token)
  | [] => .ok [endOfInput line]
  | g :: rest =>
    match piece offset g rest with
    | .error fault => .error ⟨.atLine source line, fault⟩
    | .ok (p, reach) =>
      let used := g :: rest.take reach
      (scanFrom source (line + lineFeeds used) (offset + (used.flatMap Glyph.bytes).length)
        (rest.drop reach)).map (p.tokens line used ++ ·)
termination_by glyphs => glyphs.length

/-- The tokens of a source text, with the name by which diagnostics refer to it. -/
def scan (source text : Text) : Except Diagnostic (List Token) := scanFrom source 1 0 (Glyph.decode text)

end Token

end LetScript
