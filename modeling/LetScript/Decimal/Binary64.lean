import LetScript.Decimal.Basic

/-!
# Decimals and binary floating point

A non-negative double is a number of steps above zero: the magnitude bits of the IEEE 754 binary64
format, read as a natural number, grow with the value. `nearest` rounds a fraction to such a number of
steps, half-way cases to the even one, and `exact` writes a number of steps as a decimal without error.
-/

namespace LetScript

namespace Binary64

/-- The number of steps in a binade. -/
def binadeSteps : Nat := Nat.pow 2 52

/-- The number of steps of infinity; the finite magnitudes lie below it. -/
def infinity : Nat := 2047 * binadeSteps

/-- A quotient rounded to the nearest natural number, a half to the even neighbour. -/
def roundDiv (num den : Nat) : Nat :=
  let q := num / den
  let r := num % den
  if 2 * r < den then q else if den < 2 * r then q + 1 else q + q % 2

/-- The double nearest to `num / den`. The spacing of doubles is the smallest one, `2 ^ -1074`, scaled
by `2 ^ k`, where `k` is the least binade in which the quotient has at most 53 bits. -/
def nearest (num den : Nat) : Nat :=
  let scaled := num * Nat.pow 2 1074
  let k := (scaled / den).log2 - 52
  min (roundDiv scaled (den * Nat.pow 2 k) + k * binadeSteps) infinity

/-- The double nearest to a decimal. -/
def ofDecimal (d : Decimal) : Nat := nearest d.fraction.1 d.fraction.2

/-- The binade of a magnitude: how often the smallest spacing is doubled. -/
def binade (magnitude : Nat) : Nat := magnitude / binadeSteps - 1

/-- The number of spacings in a magnitude of its binade. -/
def significand (magnitude : Nat) : Nat := magnitude - binade magnitude * binadeSteps

/-- A finite magnitude as a decimal, without rounding. Above `2 ^ -1074 * 2 ^ 1074 = 1` spacings are
whole numbers; below, a spacing of `2 ^ -n` is `5 ^ n * 10 ^ -n`. -/
def exact (magnitude : Nat) : Decimal :=
  let k := binade magnitude
  let m := significand magnitude
  if 1074 ≤ k then ⟨m * Nat.pow 2 (k - 1074), 0⟩
  else ⟨m * Nat.pow 5 (1074 - k), -((1074 - k : Nat) : Int)⟩

/-- The weight of the sign bit. -/
def signBit : Nat := Nat.pow 2 63

/-- The double with the given sign and magnitude. -/
def toFloat (negative : Bool) (magnitude : Nat) : Float :=
  Float.ofBits (UInt64.ofNat (if negative then magnitude + signBit else magnitude))

/-- Whether the sign bit of a double is set. -/
def isNegative (x : Float) : Bool := signBit ≤ x.toBits.toNat

/-- The magnitude bits of a double. -/
def magnitude (x : Float) : Nat := x.toBits.toNat % signBit

end Binary64

end LetScript
