import LetScript.Decimal.Shortest

/-!
# Values

A value is a type tag beside a payload. Values that a program computes carry a payload of their type; a
host may label a payload with another type, and then every question about the value is answered by
its tag, reading a payload of another type as the zero of the asked one.
-/

namespace LetScript

/-- The type tag of a value. -/
inductive ValueType where
  | nil
  | bool
  | number
  | string
  /-- A tag that the language does not know. -/
  | unknown
  deriving DecidableEq, Repr

namespace ValueType

/-- The name of a type in messages. -/
def name : ValueType → Text
  | nil => Text.ofString "Nil"
  | bool => Text.ofString "Bool"
  | number => Text.ofString "Number"
  | string => Text.ofString "String"
  | unknown => Text.ofString "Unknown"

/-- The type with the given number; numbers out of range are unknown. -/
def ofCode (code : Int) : ValueType :=
  if code = 0 then nil
  else if code = 1 then bool
  else if code = 2 then number
  else if code = 3 then string
  else unknown

end ValueType

/-- What a value holds. -/
inductive Payload where
  | none
  | bool (b : Bool)
  | number (x : Float)
  | string (s : Text)

/-- A value of the language. -/
structure Value where
  /-- The tag by which the value is treated. -/
  type : ValueType
  /-- What the value holds. -/
  payload : Payload

namespace Value

/-- The unit value. -/
def nil : Value := ⟨.nil, .none⟩

/-- A truth value. -/
def ofBool (b : Bool) : Value := ⟨.bool, .bool b⟩

/-- A number. -/
def ofNumber (x : Float) : Value := ⟨.number, .number x⟩

/-- A string. -/
def ofText (s : Text) : Value := ⟨.string, .string s⟩

/-- The truth value held, false if there is none. -/
def bool (v : Value) : Bool :=
  match v.payload with
  | .bool b => b
  | _ => false

/-- The number held, zero if there is none. -/
def number (v : Value) : Float :=
  match v.payload with
  | .number x => x
  | _ => 0

/-- The string held, empty if there is none. -/
def text (v : Value) : Text :=
  match v.payload with
  | .string s => s
  | _ => []

/-- Whether a value is the unit value. -/
def isNil (v : Value) : Bool := v.type = .nil

/-- Equality of the language: values of different types differ, numbers compare as doubles do, and
values of an unknown type equal nothing. -/
def equal (v w : Value) : Bool :=
  if v.type = w.type then
    match v.type with
    | .nil => true
    | .bool => v.bool == w.bool
    | .number => v.number == w.number
    | .string => v.text == w.text
    | .unknown => false
  else false

/-- The text of a value; a string stands between quotes, and nothing in it is escaped. -/
def display (v : Value) : Text :=
  match v.type with
  | .nil => Text.ofString "()"
  | .bool => if v.bool then Text.ofString "true" else Text.ofString "false"
  | .number => numberText v.number
  | .string => Text.ofString "\"" ++ v.text ++ Text.ofString "\""
  | .unknown => Text.ofString "<unknown>"

end Value

end LetScript
