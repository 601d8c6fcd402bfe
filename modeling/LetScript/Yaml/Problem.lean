import LetScript.Text.Basic

/-!
# Malformed documents

What can be wrong with a document, and how it is worded. A line is named with a problem, unless that is the
first one.
-/

namespace LetScript

namespace Yaml

/-- What is wrong with a document. -/
inductive Problem where
  /-- A byte starts no code of a character. -/
  | leadingByte
  /-- The file ends within the code of a character. -/
  | cutCode
  /-- A byte does not go on with the code of a character. -/
  | trailingByte
  /-- The code of a character is longer than it has to be. -/
  | longCode
  /-- A code stands for no character. -/
  | noCharacter
  /-- The file ends within a sixteen-bit number. -/
  | cutWord
  /-- The second half of a code stands alone. -/
  | strayHalf
  /-- The file ends after the first half of a code. -/
  | cutPair
  /-- The first half of a code stands alone. -/
  | missingHalf
  /-- A document may not contain a character. -/
  | controlCharacter
  /-- No token starts with a character. -/
  | unknownToken
  /-- What has to be a key is none. -/
  | missingColon
  /-- Collections are nested too deeply. -/
  | tooDeep (limit : Nat)
  /-- An item of a block sequence stands where none may. -/
  | misplacedItem
  /-- A key of a block mapping stands where none may. -/
  | misplacedKey
  /-- A value of a block mapping stands where none may. -/
  | misplacedValue
  /-- A directive has no name. -/
  | missingDirectiveName
  /-- The name of a directive contains another character than letters, digits, dashes and underscores. -/
  | directiveNameCharacter
  /-- A directive is not known. -/
  | unknownDirective
  /-- A version has no number. -/
  | missingVersion
  /-- A number of a version has too many digits. -/
  | longVersion
  /-- No point follows the first number of a version. -/
  | missingVersionPoint
  /-- No blank follows. -/
  | missingBlank
  /-- No white space follows. -/
  | missingSpace
  /-- More than a comment follows on a line. -/
  | missingLineEnd
  /-- An anchor or a reference has no name, or one that does not end well. -/
  | missingName
  /-- A tag in angle brackets is not closed. -/
  | missingAngle
  /-- A handle lacks an exclamation mark. -/
  | missingBang
  /-- A tag has no characters. -/
  | missingTag
  /-- A percent sign is not followed by two hexadecimal digits, or should follow. -/
  | missingEscapedByte
  /-- An escaped byte starts no code of a character. -/
  | escapedLead
  /-- An escaped byte does not go on with the code of a character. -/
  | escapedTrail
  /-- A block scalar asks for an indentation of zero. -/
  | zeroIndentation
  /-- A tab stands in the indentation of a block scalar. -/
  | tabIndentation
  /-- A tab stands in the indentation of a further line of a plain scalar. -/
  | tabContinuation
  /-- A line that divides documents stands within quotes. -/
  | quotedDivider
  /-- A quote is not closed. -/
  | missingQuote
  /-- A backslash is followed by a character that it does not go with. -/
  | unknownEscape
  /-- The code in an escape has too few digits. -/
  | missingHexDigit
  /-- The code in an escape stands for no character. -/
  | escapedNoCharacter
  /-- No document starts after directives. -/
  | missingStart
  /-- The version is given twice. -/
  | repeatedVersion
  /-- The version is not known. -/
  | unknownVersion
  /-- A handle is given twice. -/
  | repeatedHandle
  /-- The handle of a tag is not given. -/
  | unknownHandle
  /-- A token starts no part of a document. -/
  | missingContent
  /-- No dash follows an item. -/
  | missingDash
  /-- No key follows a value. -/
  | missingKey
  /-- Neither a comma nor the closing bracket follows an item. -/
  | missingComma (closing : Char)
  /-- A reference is to a name that has not been given. -/
  | unknownName (name : Text)
  /-- A part refers to itself. -/
  | cycle (name : Text)
  /-- What a mapping takes over is no mapping. -/
  | mergeKind
  /-- A scalar does not look like what its tag asks for. -/
  | tagMismatch (found text wanted : Text)
  /-- A scalar is not in base 64. -/
  | notBase64

namespace Problem

/-- The wording of a problem. -/
def message : Problem → Text
  | leadingByte => Text.ofString "invalid leading UTF-8 octet"
  | cutCode => Text.ofString "incomplete UTF-8 octet sequence"
  | trailingByte => Text.ofString "invalid trailing UTF-8 octet"
  | longCode => Text.ofString "invalid length of a UTF-8 sequence"
  | noCharacter => Text.ofString "invalid Unicode character"
  | cutWord => Text.ofString "incomplete UTF-16 character"
  | strayHalf => Text.ofString "unexpected low surrogate area"
  | cutPair => Text.ofString "incomplete UTF-16 surrogate pair"
  | missingHalf => Text.ofString "expected low surrogate area"
  | controlCharacter => Text.ofString "control characters are not allowed"
  | unknownToken => Text.ofString "found character that cannot start any token"
  | missingColon => Text.ofString "could not find expected ':'"
  | tooDeep limit => Text.ofString "exceeded max depth of " ++ Text.ofNat limit
  | misplacedItem => Text.ofString "block sequence entries are not allowed in this context"
  | misplacedKey => Text.ofString "mapping keys are not allowed in this context"
  | misplacedValue => Text.ofString "mapping values are not allowed in this context"
  | missingDirectiveName => Text.ofString "could not find expected directive name"
  | directiveNameCharacter => Text.ofString "found unexpected non-alphabetical character"
  | unknownDirective => Text.ofString "found unknown directive name"
  | missingVersion => Text.ofString "did not find expected version number"
  | longVersion => Text.ofString "found extremely long version number"
  | missingVersionPoint => Text.ofString "did not find expected digit or '.' character"
  | missingBlank => Text.ofString "did not find expected whitespace"
  | missingSpace => Text.ofString "did not find expected whitespace or line break"
  | missingLineEnd => Text.ofString "did not find expected comment or line break"
  | missingName => Text.ofString "did not find expected alphabetic or numeric character"
  | missingAngle => Text.ofString "did not find the expected '>'"
  | missingBang => Text.ofString "did not find expected '!'"
  | missingTag => Text.ofString "did not find expected tag URI"
  | missingEscapedByte => Text.ofString "did not find URI escaped octet"
  | escapedLead => Text.ofString "found an incorrect leading UTF-8 octet"
  | escapedTrail => Text.ofString "found an incorrect trailing UTF-8 octet"
  | zeroIndentation => Text.ofString "found an indentation indicator equal to 0"
  | tabIndentation => Text.ofString "found a tab character where an indentation space is expected"
  | tabContinuation => Text.ofString "found a tab character that violates indentation"
  | quotedDivider => Text.ofString "found unexpected document indicator"
  | missingQuote => Text.ofString "found unexpected end of stream"
  | unknownEscape => Text.ofString "found unknown escape character"
  | missingHexDigit => Text.ofString "did not find expected hexdecimal number"
  | escapedNoCharacter => Text.ofString "found invalid Unicode character escape code"
  | missingStart => Text.ofString "did not find expected <document start>"
  | repeatedVersion => Text.ofString "found duplicate %YAML directive"
  | unknownVersion => Text.ofString "found incompatible YAML document"
  | repeatedHandle => Text.ofString "found duplicate %TAG directive"
  | unknownHandle => Text.ofString "found undefined tag handle"
  | missingContent => Text.ofString "did not find expected node content"
  | missingDash => Text.ofString "did not find expected '-' indicator"
  | missingKey => Text.ofString "did not find expected key"
  | missingComma closing =>
    Text.ofString "did not find expected ',' or '" ++ Text.ofChar closing ++ Text.ofString "'"
  | unknownName name => Text.ofString "unknown anchor '" ++ name ++ Text.ofString "' referenced"
  | cycle name => Text.ofString "anchor '" ++ name ++ Text.ofString "' value contains itself"
  | mergeKind => Text.ofString "map merge requires map or sequence of maps as the value"
  | tagMismatch found text wanted =>
    Text.ofString "cannot decode " ++ found ++ Text.ofString " \u0060" ++ text ++
      Text.ofString "\u0060 as a " ++ wanted
  | notBase64 => Text.ofString "!!binary value contains invalid base64 data"

end Problem

/-- Why a document is malformed. -/
structure Malformed where
  /-- The line that is named. -/
  line? : Option Nat
  /-- What is wrong. -/
  problem : Problem

namespace Malformed

/-- The line to name for something that starts on one line and goes wrong on another: the first of the two that
is not the first line of the file. -/
def lineOf (start place : Nat) : Option Nat :=
  if start ≠ 1 then some start else if place ≠ 1 then some place else none

/-- The wording of why a document is malformed. -/
def message (m : Malformed) : Text :=
  match m.line? with
  | some line => Text.ofString "line " ++ Text.ofNat line ++ Text.ofString ": " ++ m.problem.message
  | none => m.problem.message

end Malformed

end Yaml

end LetScript
