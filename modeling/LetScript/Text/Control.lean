import LetScript.Text.Printable

/-!
# Control characters

Characters without a place on a line of text: controls, format characters, private use and code points
that are not assigned. They are all that is neither printable nor a separator.
-/

namespace LetScript.Text

/-- Ranges of the general categories Zs, Zl and Zp, in increasing order. -/
def separators : Ranges :=
  [(0x20, 0x20), (0xA0, 0xA0), (0x1680, 0x1680), (0x2000, 0x200A), (0x2028, 0x2029), (0x202F, 0x202F),
   (0x205F, 0x205F), (0x3000, 0x3000)]

/-- A character of the general category C, code points that are not assigned among them. -/
def isControl (c : Char) : Bool := !isPrintable c && !separators.contains c.toNat

end LetScript.Text
