import LetScript.Text.Glyph
import LetScript.Text.Width

/-!
# Columns

How many terminal columns a text takes, and cutting it to a number of columns. Both are left to a ruler, which
knows the terminal. The usual one adds up the columns of the characters, and of a text that is too wide it keeps
the longest beginning that leaves room for a mark.
-/

namespace LetScript

namespace Text

/-- The characters that a reader sees: a stray byte shows as the replacement character. -/
def shownChars (t : Text) : List Char := (Glyph.decode t).map Glyph.shown

/-- The text that characters spell. -/
def ofChars (cs : List Char) : Text := cs.flatMap ofChar

end Text

/-- What measures texts in columns and cuts them. -/
structure Ruler where
  /-- The columns of a text. -/
  width : Text → Nat
  /-- A text cut to a number of columns, with a mark behind what is kept of it. -/
  truncate : Text → Int → Text → Text

namespace Ruler

/-- The columns of characters together. -/
def columns (charWidth : Char → Nat) (cs : List Char) : Nat := cs.foldr (fun c sum => charWidth c + sum) 0

/-- Characters from the front, for as long as they take at most `budget` columns together. -/
def keepWithin (charWidth : Char → Nat) (budget : Int) : List Char → List Char
  | [] => []
  | c :: cs =>
    if (charWidth c : Int) ≤ budget then c :: keepWithin charWidth (budget - charWidth c) cs else []

/-- The ruler that goes by the columns of single characters. Stray bytes of what is kept of a text show as
replacement characters. -/
def ofCharWidth (charWidth : Char → Nat) : Ruler where
  width t := columns charWidth t.shownChars
  truncate t limit mark :=
    if (columns charWidth t.shownChars : Int) ≤ limit then t
    else
      let budget := limit - columns charWidth mark.shownChars
      Text.ofChars (keepWithin charWidth budget t.shownChars) ++ mark

/-- The ruler for terminals. -/
def terminal : Ruler := ofCharWidth Text.charWidth

end Ruler

end LetScript
