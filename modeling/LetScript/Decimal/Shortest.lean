import LetScript.Decimal.Binary64

/-!
# Shortest decimals

The decimal with the fewest digits that reads back as a given double; of two such decimals the one
nearer to the double, and of two equally near ones that with the even last digit.
-/

namespace LetScript

namespace Binary64

/-- Whether a decimal reads back as the magnitude. -/
def readsBack (magnitude : Nat) (d : Decimal) : Bool := ofDecimal d = magnitude

/-- Whether the digits dropped from `whole` amount to more than half a unit of the last digit kept, or to
half a unit after an odd digit. -/
def roundsUp (digits : Nat) (whole : Decimal) : Bool :=
  let unit := Nat.pow 10 (whole.size - digits)
  let dropped := whole.coefficient % unit
  let kept := whole.coefficient / unit
  unit < 2 * dropped || (unit = 2 * dropped && kept % 2 = 1)

/-- A decimal of the given number of digits that reads back as the magnitude, whose exact value is
`whole`. -/
def ofSize? (magnitude : Nat) (whole : Decimal) (digits : Nat) : Option Decimal :=
  let below := whole.truncate digits
  let above := below.next
  if readsBack magnitude below then
    if readsBack magnitude above && roundsUp digits whole then some above else some below
  else if readsBack magnitude above then some above
  else none

/-- The shortest decimal that reads back as a finite magnitude. The exact value has finitely many digits
and is the last resort. -/
def shortest (magnitude : Nat) : Decimal :=
  let whole := exact magnitude
  (((List.range whole.size).findSome? fun i => ofSize? magnitude whole (i + 1)).getD whole).normalize

end Binary64

/-- The text of a number: positional, with the fewest digits that read back, and signed zeros and
infinities kept apart. -/
def numberText (x : Float) : Text :=
  let magnitude := Binary64.magnitude x
  let sign := if Binary64.isNegative x then Text.ofString "-" else []
  if Binary64.infinity < magnitude then Text.ofString "NaN"
  else if magnitude = Binary64.infinity then
    (if Binary64.isNegative x then Text.ofString "-Inf" else Text.ofString "+Inf")
  else sign ++ (Binary64.shortest magnitude).numeral.flatMap Text.ofChar

/-- The number that a literal with the given digits before and after the point denotes. -/
def numberOfDigits (whole part : List Char) : Float :=
  Binary64.toFloat false (Binary64.ofDecimal (Decimal.ofDigits whole part))

end LetScript
