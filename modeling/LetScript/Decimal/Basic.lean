import LetScript.Text.Basic

/-!
# Decimal numbers

A natural coefficient scaled by a power of ten, with its positional numeral: digits, at most one point,
never an exponent.
-/

namespace LetScript

/-- The non-negative number `coefficient * 10 ^ exponent`. -/
structure Decimal where
  /-- The digits read as one natural number. -/
  coefficient : Nat
  /-- The place of the last digit. -/
  exponent : Int
  deriving DecidableEq, Repr

namespace Decimal

/-- A decimal as a fraction of natural numbers: numerator and denominator. -/
def fraction (d : Decimal) : Nat × Nat :=
  (d.coefficient * Nat.pow 10 d.exponent.toNat, Nat.pow 10 (-d.exponent).toNat)

/-- The value of an ASCII digit. -/
def digitValue (c : Char) : Nat := c.toNat - '0'.toNat

/-- The natural number that a sequence of ASCII digits spells. -/
def natOfDigits (digits : List Char) : Nat :=
  digits.foldl (fun n c => 10 * n + digitValue c) 0

/-- The decimal with the given digits before and after the point. -/
def ofDigits (whole part : List Char) : Decimal :=
  ⟨natOfDigits (whole ++ part), -(part.length : Int)⟩

/-- The number of digits of the coefficient. -/
def size (d : Decimal) : Nat := (Nat.toDigits 10 d.coefficient).length

/-- The leading `digits` digits of a decimal; the others are dropped. -/
def truncate (digits : Nat) (d : Decimal) : Decimal :=
  let dropped := d.size - digits
  ⟨d.coefficient / Nat.pow 10 dropped, d.exponent + dropped⟩

/-- The next decimal on the grid of the last digit. -/
def next (d : Decimal) : Decimal := ⟨d.coefficient + 1, d.exponent⟩

/-- The same number with up to `steps` zeros taken from the end of its coefficient. -/
def stripZeros : Nat → Decimal → Decimal
  | 0, d => d
  | steps + 1, d =>
    if d.coefficient % 10 = 0 then stripZeros steps ⟨d.coefficient / 10, d.exponent + 1⟩ else d

/-- The same number with the shortest coefficient; zero is the digit zero before the point. -/
def normalize (d : Decimal) : Decimal :=
  if d.coefficient = 0 then ⟨0, 0⟩ else stripZeros d.size d

/-- The positional numeral of a decimal. -/
def numeral (d : Decimal) : List Char :=
  let digits := Nat.toDigits 10 d.coefficient
  if 0 ≤ d.exponent then digits ++ List.replicate d.exponent.toNat '0'
  else
    let places := (-d.exponent).toNat
    if places < digits.length then
      digits.take (digits.length - places) ++ '.' :: digits.drop (digits.length - places)
    else '0' :: '.' :: (List.replicate (places - digits.length) '0' ++ digits)

end Decimal

end LetScript
