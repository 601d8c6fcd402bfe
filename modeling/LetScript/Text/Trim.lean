import LetScript.Text.Glyph
import LetScript.Text.Blank

/-!
# Trimming

Cutting white space from the ends of a text. The text is read as glyphs, so that a white-space character
of several bytes is cut as a whole and stray bytes stay.
-/

namespace LetScript.Text

/-- A glyph that is a white-space character. -/
def isBlankGlyph : Glyph → Bool
  | .char c => isBlank c
  | .stray _ => false

/-- A text without the white space at its ends. -/
def trim (t : Text) : Text :=
  let fromStart := (Glyph.decode t).dropWhile isBlankGlyph
  (fromStart.reverse.dropWhile isBlankGlyph).reverse.flatMap Glyph.bytes

end LetScript.Text
