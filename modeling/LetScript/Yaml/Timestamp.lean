import LetScript.Text.Digit

/-!
# Dates and times

Texts that a plain scalar may spell a date with: the date alone, or with a time of day. The year has four
digits, the other numbers have one or two. The time follows after a letter, with a time zone, or after
spaces, without one. Seconds may have a fraction.
-/

namespace LetScript

namespace Yaml

namespace Timestamp

/-- The value of a digit. -/
def digit (c : Char) : Nat := c.toNat - '0'.toNat

/-- A number of one or two digits. -/
def number? : List Char → Option (Nat × List Char)
  | a :: b :: rest =>
    if !Text.isAsciiDigit a then none
    else if Text.isAsciiDigit b then some (10 * digit a + digit b, rest)
    else some (digit a, b :: rest)
  | [a] => if Text.isAsciiDigit a then some (digit a, []) else none
  | [] => none

/-- A number of one or two digits below a limit. -/
def below? (limit : Nat) (chars : List Char) : Option (List Char) :=
  match number? chars with
  | some (n, rest) => if n < limit then some rest else none
  | none => none

/-- What follows a character. -/
def after? (c : Char) : List Char → Option (List Char)
  | x :: rest => if x = c then some rest else none
  | [] => none

/-- The number of days in a month. -/
def daysIn (month year : Nat) : Nat :=
  if month = 2 then
    if year % 4 = 0 ∧ (year % 100 ≠ 0 ∨ year % 400 = 0) then 29 else 28
  else if month = 4 ∨ month = 6 ∨ month = 9 ∨ month = 11 then 30
  else 31

/-- What follows a date. -/
def date? : List Char → Option (List Char)
  | a :: b :: c :: d :: '-' :: rest =>
    if [a, b, c, d].all Text.isAsciiDigit then
      let year := [a, b, c, d].foldl (fun n x => 10 * n + digit x) 0
      match number? rest with
      | some (month, '-' :: rest) =>
        match number? rest with
        | some (day, rest) =>
          if 1 ≤ month ∧ month ≤ 12 ∧ 1 ≤ day ∧ day ≤ daysIn month year then some rest else none
        | none => none
      | _ => none
    else none
  | _ => none

/-- What follows the fraction of a second, if there is one. -/
def dropFraction : List Char → List Char
  | x :: d :: rest =>
    if (x = '.' ∨ x = ',') ∧ Text.isAsciiDigit d then rest.dropWhile Text.isAsciiDigit else x :: d :: rest
  | chars => chars

/-- What follows a time of day. -/
def time? (chars : List Char) : Option (List Char) :=
  (((((below? 24 chars).bind (after? ':')).bind (below? 60)).bind (after? ':')).bind (below? 60)).map
    dropFraction

/-- Whether characters are a time zone: that of Greenwich, or hours and minutes from it. -/
def isZone : List Char → Bool
  | ['Z'] => true
  | [sign, a, b, ':', c, d] =>
    (sign = '+' || sign = '-') && [a, b, c, d].all Text.isAsciiDigit && 10 * digit a + digit b ≤ 24 &&
      10 * digit c + digit d ≤ 60
  | _ => false

/-- Whether what follows a date completes a timestamp. -/
def completes : List Char → Bool
  | [] => true
  | x :: rest =>
    if x = 'T' ∨ x = 't' then (time? rest).any isZone
    else if x = ' ' then (time? (rest.dropWhile (· = ' '))).any (·.isEmpty)
    else false

end Timestamp

/-- Whether characters spell a date, with or without a time. -/
def isTimestamp (chars : List Char) : Bool := (Timestamp.date? chars).any Timestamp.completes

end Yaml

end LetScript
