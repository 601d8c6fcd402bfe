import LetScript.Text.Basic

/-!
# Base 64

Bytes written with 64 letters, four for three bytes. One or two equals signs fill up the last four, and line
ends do not count.
-/

namespace LetScript

namespace Text

/-- The value of a letter. -/
def base64Value? (b : UInt8) : Option Nat :=
  let n := b.toNat
  if 0x41 ≤ n ∧ n ≤ 0x5A then some (n - 0x41)
  else if 0x61 ≤ n ∧ n ≤ 0x7A then some (n - 0x61 + 26)
  else if 0x30 ≤ n ∧ n ≤ 0x39 then some (n - 0x30 + 52)
  else if n = 0x2B then some 62
  else if n = 0x2F then some 63
  else none

/-- The equals sign. -/
def base64Fill : UInt8 := 0x3D

/-- The first bytes of three that are given by one number. -/
def leadingBytes (count n : Nat) : Text :=
  [UInt8.ofNat (n / 65536), UInt8.ofNat (n / 256 % 256), UInt8.ofNat (n % 256)].take count

/-- The number that four letters spell. -/
def base64Group? (letters : Text) : Option Nat :=
  (letters.mapM base64Value?).map fun values => values.foldl (fun n d => 64 * n + d) 0

/-- The bytes that letters without line ends spell. -/
def ofLetters? : Text → Option Text
  | [] => some []
  | a :: b :: c :: d :: rest =>
    if rest = [] ∧ d = base64Fill then
      if c = base64Fill then (base64Group? [a, b, 0x41, 0x41]).map (leadingBytes 1)
      else (base64Group? [a, b, c, 0x41]).map (leadingBytes 2)
    else
      match base64Group? [a, b, c, d], ofLetters? rest with
      | some n, some more => some (leadingBytes 3 n ++ more)
      | _, _ => none
  | _ => none

/-- The bytes that a text spells in base 64. -/
def ofBase64? (t : Text) : Option Text := ofLetters? (t.filter fun b => b ≠ 0x0A && b ≠ 0x0D)

end Text

end LetScript
