/-!
# Byte strings

Source text, file contents and printed output are strings of bytes, which need not be valid UTF-8.
-/

namespace LetScript

/-- A byte string. -/
abbrev Text := List UInt8

namespace Text

/-- The UTF-8 bytes of a string. -/
def ofString (s : String) : Text := s.toByteArray.data.toList

/-- The UTF-8 bytes of a character. -/
def ofChar (c : Char) : Text := String.utf8EncodeChar c

/-- The decimal numeral of a natural number. -/
def ofNat (n : Nat) : Text := (Nat.toDigits 10 n).flatMap ofChar

/-- The decimal numeral of an integer, with a minus sign below zero. -/
def ofInt : Int → Text
  | .ofNat n => ofNat n
  | .negSucc n => 0x2D :: ofNat (n + 1)

/-- The line feed. -/
def newline : UInt8 := 0x0A

/-- A text as one line: the line feed is added. -/
def line (t : Text) : Text := t ++ [newline]

/-- The texts in order, with a separator between any two neighbours. -/
def join (separator : Text) (parts : List Text) : Text := (parts.intersperse separator).flatten

theorem join_cons_cons (separator first second : Text) (rest : List Text) :
    join separator (first :: second :: rest) = first ++ separator ++ join separator (second :: rest) := by
  simp [join]

/-- The lines of a text that end in a line feed, without it, and what follows the last line feed. -/
def splitLines : Text → List Text × Text
  | [] => ([], [])
  | b :: rest =>
    match splitLines rest with
    | (lines, last) =>
      if b = newline then ([] :: lines, last)
      else
        match lines with
        | [] => ([], b :: last)
        | first :: others => ((b :: first) :: others, last)

end Text

end LetScript
