import LetScript.Yaml.Problem

/-!
# Characters of a document

The bytes of a document spell characters in UTF-8 or, if they start with the byte order mark of that
encoding, in UTF-16. They are loaded in portions of a fixed size; a portion starts with the first character
that the portion before it does not hold in full. A portion that holds a character which is misspelt, or
which documents may not contain, cannot be loaded, and nothing after it can.
-/

namespace LetScript

namespace Yaml

/-! ## Codes of characters -/

/-- How bytes spell characters. -/
inductive Encoding where
  | utf8
  | utf16 (bigEndian : Bool)

/-- The next character of a sequence of bytes. -/
structure Code where
  /-- How many bytes it takes. -/
  width : Nat
  /-- The character, or why it is none. -/
  char : Except Problem Char
  /-- Whether all its bytes are there. -/
  isWhole : Bool

/-- Whether a document may contain a character. -/
def isAllowed (c : Char) : Bool :=
  let n := c.toNat
  n = 0x09 || n = 0x0A || n = 0x0D || (0x20 ≤ n && n ≤ 0x7E) || n = 0x85 ||
    (0xA0 ≤ n && n ≤ 0xFFFD) || 0x10000 ≤ n

/-- The character with a number, if a document may contain it. -/
def allowedChar (n : Nat) : Except Problem Char :=
  if isAllowed (Char.ofNat n) then .ok (Char.ofNat n) else .error .controlCharacter

/-- The number of bytes of a UTF-8 code by its first byte; zero if no code starts with it. -/
def utf8Width (lead : UInt8) : Nat :=
  let n := lead.toNat
  if n < 0x80 then 1 else if n < 0xC0 then 0 else if n < 0xE0 then 2 else if n < 0xF0 then 3
  else if n < 0xF8 then 4 else 0

/-- Whether a byte goes on with a UTF-8 code. -/
def isTrailing (b : UInt8) : Bool := 0x80 ≤ b.toNat && b.toNat < 0xC0

/-- The least number that needs a UTF-8 code of some bytes. -/
def utf8Least : Nat → Nat
  | 2 => 0x80
  | 3 => 0x800
  | 4 => 0x10000
  | _ => 0

/-- The character that the bytes of a UTF-8 code spell. -/
def utf8Char (lead : UInt8) (trail : Text) : Except Problem Char :=
  let width := trail.length + 1
  let start := if width = 1 then lead.toNat else lead.toNat % Nat.pow 2 (7 - width)
  let n := trail.foldl (fun n b => 64 * n + b.toNat % 64) start
  if !trail.all isTrailing then .error .trailingByte
  else if n < utf8Least width then .error .longCode
  else if !n.isValidChar then .error .noCharacter
  else allowedChar n

/-- The first character of bytes in UTF-8. -/
def utf8Code (lead : UInt8) (rest : Text) : Code :=
  let width := utf8Width lead
  let trail := rest.take (width - 1)
  if width = 0 then ⟨1, .error .leadingByte, true⟩
  else if trail.length + 1 < width then ⟨width, .error .cutCode, false⟩
  else ⟨width, utf8Char lead trail, true⟩

/-- The sixteen-bit number that two bytes spell. -/
def word (bigEndian : Bool) (a b : UInt8) : Nat :=
  if bigEndian then 256 * a.toNat + b.toNat else 256 * b.toNat + a.toNat

/-- Whether a sixteen-bit number is the first half of a code of two. -/
def isHighHalf (n : Nat) : Bool := 0xD800 ≤ n && n < 0xDC00

/-- Whether a sixteen-bit number is the second half of a code of two. -/
def isLowHalf (n : Nat) : Bool := 0xDC00 ≤ n && n < 0xE000

/-- The first character of bytes in UTF-16. -/
def utf16Code (bigEndian : Bool) (lead : UInt8) : Text → Code
  | [] => ⟨2, .error .cutWord, false⟩
  | b :: rest =>
    let high := word bigEndian lead b
    if isLowHalf high then ⟨2, .error .strayHalf, true⟩
    else if isHighHalf high then
      match rest with
      | c :: d :: _ =>
        let low := word bigEndian c d
        if isLowHalf low then
          ⟨4, allowedChar (0x10000 + (high - 0xD800) * 0x400 + (low - 0xDC00)), true⟩
        else ⟨4, .error .missingHalf, true⟩
      | _ => ⟨4, .error .cutPair, false⟩
    else ⟨2, allowedChar high, true⟩

/-- The first character of bytes. -/
def Encoding.code : Encoding → UInt8 → Text → Code
  | utf8, lead, rest => utf8Code lead rest
  | utf16 bigEndian, lead, rest => utf16Code bigEndian lead rest

/-- The characters of bytes, up to and with the first that is wrong. -/
def codes (encoding : Encoding) (bytes : Text) : List Code :=
  match bytes with
  | [] => []
  | lead :: rest =>
    let code := encoding.code lead rest
    match code.char with
    | .error _ => [code]
    | .ok _ => code :: codes encoding (rest.drop (code.width - 1))
termination_by bytes.length

/-! ## Portions -/

/-- The number of bytes in a portion. -/
def portionSize : Nat := 512

/-- A document ready to be loaded. -/
structure Source where
  /-- The characters. -/
  chars : List Char
  /-- How many characters have been loaded after each portion. -/
  ends : List Nat
  /-- What is wrong with the portion after these; `none` if they reach the end of the document. -/
  flaw? : Option Problem

/-- The ends of the portions of codes, given the bytes left in the current portion and the number of
characters before them, and why the portion after them cannot be loaded. -/
def portionEnds (room count : Nat) : List Code → List Nat × Option Problem
  | [] => ([count], none)
  | code :: rest =>
    let isHere := code.width ≤ room && code.isWhole
    match code.char with
    | .error problem => (if isHere then [] else [count], some problem)
    | .ok _ =>
      if isHere then portionEnds (room - code.width) (count + 1) rest
      else
        match portionEnds (portionSize - code.width) (count + 1) rest with
        | (ends, flaw) => (count :: ends, flaw)

/-- The encoding of a document and the bytes of its byte order mark. -/
def encodingOf : Text → Encoding × Nat
  | 0xFF :: 0xFE :: _ => (.utf16 false, 2)
  | 0xFE :: 0xFF :: _ => (.utf16 true, 2)
  | 0xEF :: 0xBB :: 0xBF :: _ => (.utf8, 3)
  | _ => (.utf8, 0)

/-- The characters and portions of a document. -/
def Source.ofText (data : Text) : Source :=
  match encodingOf data with
  | (encoding, mark) =>
    let cs := codes encoding (data.drop mark)
    match portionEnds (portionSize - mark) 0 cs with
    | (ends, flaw) => ⟨cs.filterMap (·.char.toOption), ends, flaw⟩

end Yaml

end LetScript
