import LetScript.Decimal.Shortest
import LetScript.Text.Quoted
import LetScript.Token.Kind

/-!
# Tokens

A lexical unit with its exact source text, the value of its literal and the line on which it starts.
-/

namespace LetScript

/-- The value that a literal token carries. -/
inductive Token.Literal where
  /-- No value. -/
  | none
  /-- The text between the quotes of a string. -/
  | text (value : Text)
  /-- The value of a number. -/
  | number (value : Float)

/-- A lexical unit. -/
structure Token where
  /-- Its category. -/
  kind : Token.Kind
  /-- Its source text, quotes included. -/
  lexeme : Text
  /-- The value of a literal. -/
  literal : Token.Literal
  /-- The line on which it starts. -/
  line : Int

namespace Token

/-- The text that a token carries, empty if it carries none. -/
def text (t : Token) : Text :=
  match t.literal with
  | .text value => value
  | _ => []

/-- The number that a token carries, zero if it carries none. -/
def number (t : Token) : Float :=
  match t.literal with
  | .number value => value
  | _ => 0

/-- The token that ends the input on a given line. -/
def endOfInput (line : Int) : Token := ⟨.endOfInput, [], .none, line⟩

/-- A token in words: category, quoted lexeme and line. -/
def describe (t : Token) : Text :=
  let place := Text.ofString "@" ++ Text.ofInt t.line
  if t.kind = .endOfInput then Text.ofString "EOF" ++ place
  else t.kind.name ++ Text.ofString " " ++ t.lexeme.quoted ++ place

end Token

end LetScript
