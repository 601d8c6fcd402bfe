import LetScript.Text.Glyph
import LetScript.Text.Printable

/-!
# Quotations

A text between double quotes in which quotes, backslashes and all that cannot be shown is escaped. Stray
bytes are shown by their value, so that distinct texts have distinct quotations.
-/

namespace LetScript.Text

/-- The lower-case hexadecimal numeral of `n`, filled with zeros to at least `digits` places. -/
def hex (digits n : Nat) : Text :=
  let numeral := (Nat.toDigits 16 n).flatMap ofChar
  List.replicate (digits - numeral.length) 0x30 ++ numeral

/-- The letter that follows the backslash in the escape of a common control character. -/
def escapeLetter? (c : Char) : Option Char :=
  match c.toNat with
  | 0x07 => some 'a'
  | 0x08 => some 'b'
  | 0x0C => some 'f'
  | 0x0A => some 'n'
  | 0x0D => some 'r'
  | 0x09 => some 't'
  | 0x0B => some 'v'
  | _ => none

/-- A character as it stands in a quotation. -/
def quoteChar (c : Char) : Text :=
  if c = '"' ∨ c = '\\' then ofString "\\" ++ ofChar c
  else if isPrintable c then ofChar c
  else match escapeLetter? c with
    | some letter => ofString "\\" ++ ofChar letter
    | none =>
      if c.toNat < 0x80 then ofString "\\x" ++ hex 2 c.toNat
      else if c.toNat < 0x10000 then ofString "\\u" ++ hex 4 c.toNat
      else ofString "\\U" ++ hex 8 c.toNat

/-- A glyph as it stands in a quotation. -/
def quoteGlyph : Glyph → Text
  | .char c => quoteChar c
  | .stray b => ofString "\\x" ++ hex 2 b.toNat

/-- The quotation of a text. -/
def quoted (t : Text) : Text :=
  ofString "\"" ++ (Glyph.decode t).flatMap quoteGlyph ++ ofString "\""

end LetScript.Text
