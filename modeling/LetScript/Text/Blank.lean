import LetScript.Text.Ranges

/-!
# Blank space

White space of all scripts, which is cut from the ends of a command or of a history entry.
-/

namespace LetScript.Text

/-- Ranges of the property White_Space, in increasing order. -/
def blanks : Ranges :=
  [(0x9, 0xD), (0x20, 0x20), (0x85, 0x85), (0xA0, 0xA0), (0x1680, 0x1680), (0x2000, 0x200A),
   (0x2028, 0x2029), (0x202F, 0x202F), (0x205F, 0x205F), (0x3000, 0x3000)]

/-- A white-space character. -/
def isBlank (c : Char) : Bool := blanks.contains c.toNat

end LetScript.Text
