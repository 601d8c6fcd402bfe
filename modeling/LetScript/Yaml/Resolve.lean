import LetScript.Decimal.Shortest
import LetScript.Text.Base64
import LetScript.Yaml.Problem
import LetScript.Yaml.Timestamp

/-!
# Scalars as values

What a plain scalar stands for: null, a truth value, a number, a date or, if it looks like none of these,
itself. Integers may be written in four bases, and underscores between digits do not count. A tag can ask
for a kind of value; it is an error if the scalar does not look like one.
-/

namespace LetScript

namespace Yaml

/-- What a scalar stands for. -/
inductive Resolved where
  | null
  | bool (b : Bool)
  | integer (n : Int)
  /-- A double by its sign and magnitude bits. -/
  | float (negative : Bool) (magnitude : Nat)
  /-- A date, with or without a time. -/
  | timestamp
  /-- A text. -/
  | text (t : Text)

/-- Whether a text is one of some words. -/
def isOneOf (t : Text) (words : List String) : Bool := words.any fun w => Text.ofString w = t

/-! ## Integers -/

/-- The natural number that digits of a base spell. -/
def natOfDigits? (base : Nat) (digits : List Char) : Option Nat :=
  digits.foldl (fun n c =>
    match n, Text.hexValue? c with
    | some n, some d => if d < base then some (base * n + d) else none
    | _, _ => none) (some 0)

/-- The natural number that a numeral without sign spells: the base shows from its start, and a zero
before further digits means base eight. -/
def natOfNumeral? (numeral : List Char) : Option Nat :=
  match numeral with
  | [] => none
  | '0' :: x :: y :: rest =>
    if x = 'b' ∨ x = 'B' then natOfDigits? 2 (y :: rest)
    else if x = 'o' ∨ x = 'O' then natOfDigits? 8 (y :: rest)
    else if x = 'x' ∨ x = 'X' then natOfDigits? 16 (y :: rest)
    else natOfDigits? 8 (x :: y :: rest)
  | '0' :: rest => natOfDigits? 8 rest
  | _ => natOfDigits? 10 numeral

/-- The sign of a numeral and what follows it: whether there is a sign, whether it is negative, and the
rest. -/
def splitSign : List Char → Bool × Bool × List Char
  | '-' :: rest => (true, true, rest)
  | '+' :: rest => (true, false, rest)
  | chars => (false, false, chars)

/-- The first natural number that does not fit into 64 bits with a sign bit. -/
def signedLimit : Nat := Nat.pow 2 63

/-- The first natural number that does not fit into 64 bits. -/
def unsignedLimit : Nat := Nat.pow 2 64

/-- The integer that a numeral spells, if it fits into 64 bits: with a sign bit, or without one if the
numeral has no sign. -/
def integer? (numeral : List Char) : Option Int :=
  match splitSign numeral with
  | (signed, negative, digits) =>
    match natOfNumeral? digits with
    | none => none
    | some n =>
      if negative then (if n ≤ signedLimit then some (-(n : Int)) else none)
      else if n < (if signed then signedLimit else unsignedLimit) then some n
      else none

/-! ## Floating point -/

/-- The digits at the start of characters, and what follows them. -/
def spanDigits (chars : List Char) : List Char × List Char :=
  chars.span Text.isAsciiDigit

/-- The exponent at the end of a numeral; a missing one is zero. -/
def exponent? : List Char → Option Int
  | [] => some 0
  | e :: rest =>
    if e = 'e' ∨ e = 'E' then
      match splitSign rest with
      | (_, negative, digits) =>
        match spanDigits digits with
        | ([], _) => none
        | (ds, []) =>
          let n : Int := Decimal.natOfDigits ds
          some (if negative then -n else n)
        | (_, _ :: _) => none
    else none

/-- The decimal that a numeral without sign spells: digits, a point with digits after it, or both, and
perhaps an exponent. -/
def decimal? (numeral : List Char) : Option Decimal :=
  match spanDigits numeral with
  | (whole, '.' :: rest) =>
    match spanDigits rest with
    | (part, tail) =>
      if whole = [] ∧ part = [] then none
      else (exponent? tail).map fun e => ⟨Decimal.natOfDigits (whole ++ part), e - part.length⟩
  | ([], _) => none
  | (whole, tail) => (exponent? tail).map fun e => ⟨Decimal.natOfDigits whole, e⟩

/-- The magnitude of the double nearest to a decimal, if it is finite. Decimals far out of the range of
doubles are told by the place of their first digit. -/
def finiteMagnitude? (d : Decimal) : Option Nat :=
  let place := d.exponent + d.size
  if d.coefficient = 0 ∨ place < -400 then some 0
  else if 400 < place then none
  else
    let magnitude := Binary64.ofDecimal d
    if magnitude < Binary64.infinity then some magnitude else none

/-- The double that a numeral spells. -/
def float? (numeral : List Char) : Option Resolved :=
  match splitSign numeral with
  | (_, negative, rest) =>
    match decimal? rest with
    | none => none
    | some d => (finiteMagnitude? d).map (.float negative)

/-! ## All scalars -/

/-- An integer in a given base, with its sign, if it fits into 64 bits with a sign bit. -/
def signedInBase? (base : Nat) (chars : List Char) : Option Int :=
  match splitSign chars with
  | (_, _, []) => none
  | (_, negative, digits) =>
    match natOfDigits? base digits with
    | none => none
    | some n =>
      if negative then (if n ≤ signedLimit then some (-(n : Int)) else none)
      else if n < signedLimit then some n
      else none

/-- A numeral: an integer, a double, or an integer whose sign stands after the mark of its base. -/
def numeral? (numeral : List Char) : Option Resolved :=
  match integer? numeral, float? numeral with
  | some n, _ => some (.integer n)
  | none, some x => some x
  | none, none =>
    match numeral with
    | '0' :: 'b' :: rest => (signedInBase? 2 rest).map .integer
    | '0' :: 'o' :: rest => (signedInBase? 8 rest).map .integer
    | _ => none

/-- Whether each underscore stands between two digits, given the character before. -/
def underscoresDivide (before : Char) : List Char → Bool
  | [] => true
  | c :: rest =>
    (c ≠ '_' || (Text.isAsciiDigit before && rest.head?.any Text.isAsciiDigit)) && underscoresDivide c rest

/-- The double that a numeral spells which starts with its point. -/
def pointFloat? (chars : List Char) : Option Resolved :=
  if underscoresDivide '.' chars then float? (chars.filter (· ≠ '_')) else none

/-- What a word stands for. -/
def ofWord? (t : Text) : Option Resolved :=
  if isOneOf t ["", "~", "null", "Null", "NULL"] then some .null
  else if isOneOf t ["true", "True", "TRUE"] then some (.bool true)
  else if isOneOf t ["false", "False", "FALSE"] then some (.bool false)
  else if isOneOf t [".nan", ".NaN", ".NAN"] then some (.float false (Binary64.infinity + 1))
  else if isOneOf t [".inf", ".Inf", ".INF", "+.inf", "+.Inf", "+.INF"] then
    some (.float false Binary64.infinity)
  else if isOneOf t ["-.inf", "-.Inf", "-.INF"] then some (.float true Binary64.infinity)
  else none

/-- The number or, if dates are looked for, the date that a text spells. -/
def ofNumeral? (withDates : Bool) (t : Text) : Option Resolved :=
  let chars := t.map fun b => Char.ofNat b.toNat
  match chars with
  | [] => none
  | c :: _ =>
    if c = '.' then pointFloat? chars
    else if c = '+' ∨ c = '-' ∨ Text.isAsciiDigit c then
      if withDates && isTimestamp chars then some .timestamp else numeral? (chars.filter (· ≠ '_'))
    else none

/-- What a text stands for. -/
def resolve (withDates : Bool) (t : Text) : Resolved :=
  (ofWord? t).getD ((ofNumeral? withDates t).getD (.text t))

namespace Tag

def null : Text := Text.ofString "!!null"

def bool : Text := Text.ofString "!!bool"

def integer : Text := Text.ofString "!!int"

def float : Text := Text.ofString "!!float"

def timestamp : Text := Text.ofString "!!timestamp"

def text : Text := Text.ofString "!!str"

def binary : Text := Text.ofString "!!binary"

def merge : Text := Text.ofString "!!merge"

def sequence : Text := Text.ofString "!!seq"

def mapping : Text := Text.ofString "!!map"

/-- How the tags of the common kinds of values start in full. -/
def commonBeginning : Text := Text.ofString "tag:yaml.org,2002:"

/-- A tag as it is shown. -/
def short (tag : Text) : Text :=
  if commonBeginning.isPrefixOf tag then Text.ofString "!!" ++ tag.drop commonBeginning.length else tag

end Tag

/-- The tag of what a scalar stands for. -/
def Resolved.tag : Resolved → Text
  | null => Tag.null
  | bool _ => Tag.bool
  | integer _ => Tag.integer
  | float _ _ => Tag.float
  | timestamp => Tag.timestamp
  | text _ => Tag.text

/-- An integer as a double; those that fit only without a sign bit are refused. -/
def floatOfInteger? (n : Int) : Option Resolved :=
  if n < signedLimit then some (.float (n < 0) (Binary64.nearest n.natAbs 1)) else none

/-- What a scalar with the tag of a kind of value stands for. -/
def resolveKind (tag t : Text) : Except Problem Resolved :=
  let r := resolve (tag = Tag.timestamp) t
  let mismatch := Problem.tagMismatch r.tag t tag
  if r.tag = tag then .ok r
  else
    match r with
    | .integer n =>
      match (if tag = Tag.float then floatOfInteger? n else none) with
      | some r => .ok r
      | none => .error mismatch
    | _ => .error mismatch

/-- What a scalar with a tag stands for; it is a problem if the tag asks for something else than it looks like. A
tag of no common kind asks for the text. -/
def resolveAs (tag t : Text) : Except Malformed Resolved :=
  let found :=
    if tag = Tag.binary then
      match Text.ofBase64? t with
      | some bytes => .ok (.text bytes)
      | none => .error .notBase64
    else if [Tag.null, Tag.bool, Tag.integer, Tag.float, Tag.timestamp].contains tag then resolveKind tag t
    else .ok (.text t)
  found.mapError fun problem => ⟨none, problem⟩

end Yaml

end LetScript
