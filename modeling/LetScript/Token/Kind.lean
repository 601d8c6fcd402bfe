import LetScript.Text.Basic

/-!
# Token kinds

The lexical categories of the language, their names in messages and their numbers. Words that look like
identifiers are keywords when the keyword table lists them.
-/

namespace LetScript

/-- A reserved word. -/
inductive Keyword where
  | andKw
  | classKw
  | elseKw
  | falseKw
  | forKw
  | funKw
  | ifKw
  | nilKw
  | mutKw
  | orKw
  | printlnKw
  | returnKw
  | superKw
  | thisKw
  | trueKw
  | letKw
  | constKw
  | whileKw
  deriving DecidableEq, Repr

namespace Keyword

/-- The reserved words in the order of their numbers. -/
def all : List Keyword :=
  [andKw, classKw, elseKw, falseKw, forKw, funKw, ifKw, nilKw, mutKw, orKw, printlnKw, returnKw, superKw,
   thisKw, trueKw, letKw, constKw, whileKw]

/-- How a reserved word is written. -/
def spelling : Keyword → Text
  | andKw => Text.ofString "and"
  | classKw => Text.ofString "class"
  | elseKw => Text.ofString "else"
  | falseKw => Text.ofString "false"
  | forKw => Text.ofString "for"
  | funKw => Text.ofString "fun"
  | ifKw => Text.ofString "if"
  | nilKw => Text.ofString "nil"
  | mutKw => Text.ofString "mut"
  | orKw => Text.ofString "or"
  | printlnKw => Text.ofString "println"
  | returnKw => Text.ofString "return"
  | superKw => Text.ofString "super"
  | thisKw => Text.ofString "this"
  | trueKw => Text.ofString "true"
  | letKw => Text.ofString "let"
  | constKw => Text.ofString "const"
  | whileKw => Text.ofString "while"

end Keyword

/-- A lexical category. -/
inductive Token.Kind where
  /-- The end of the input. -/
  | endOfInput
  | leftParen
  | rightParen
  | leftBrace
  | rightBrace
  | comma
  | dot
  | minus
  | plus
  | semicolon
  | slash
  | star
  | bang
  | bangEqual
  | equal
  | equalEqual
  | greater
  | greaterEqual
  | less
  | lessEqual
  | identifier
  | string
  | number
  | keyword (word : Keyword)
  /-- Any category that the language does not know. -/
  | unknown
  deriving DecidableEq, Repr

namespace Token.Kind

/-- The known categories in the order of their numbers. -/
def all : List Kind :=
  [endOfInput, leftParen, rightParen, leftBrace, rightBrace, comma, dot, minus, plus, semicolon, slash,
   star, bang, bangEqual, equal, equalEqual, greater, greaterEqual, less, lessEqual, identifier, string,
   number] ++ Keyword.all.map keyword

/-- The category with the given number; numbers out of range are unknown. -/
def ofCode : Int → Kind
  | .ofNat n => all.getD n unknown
  | .negSucc _ => unknown

/-- The name of a category in messages. -/
def name : Kind → Text
  | endOfInput => Text.ofString "EOF"
  | leftParen => Text.ofString "("
  | rightParen => Text.ofString ")"
  | leftBrace => Text.ofString "\x7b"
  | rightBrace => Text.ofString "\x7d"
  | comma => Text.ofString ","
  | dot => Text.ofString "."
  | minus => Text.ofString "-"
  | plus => Text.ofString "+"
  | semicolon => Text.ofString ";"
  | slash => Text.ofString "/"
  | star => Text.ofString "*"
  | bang => Text.ofString "!"
  | bangEqual => Text.ofString "!="
  | equal => Text.ofString "="
  | equalEqual => Text.ofString "=="
  | greater => Text.ofString ">"
  | greaterEqual => Text.ofString ">="
  | less => Text.ofString "<"
  | lessEqual => Text.ofString "<="
  | identifier => Text.ofString "identifier"
  | string => Text.ofString "string"
  | number => Text.ofString "number"
  | keyword word => word.spelling
  | unknown => Text.ofString "unknown"

/-- The known category with the given name. -/
def ofName? (name : Text) : Option Kind := all.find? fun kind => kind.name = name

/-- Whether a category is a reserved word. -/
def isKeyword : Kind → Bool
  | keyword _ => true
  | _ => false

/-- The category of a word: a keyword if the word is reserved, an identifier otherwise. -/
def ofWord (word : Text) : Kind :=
  match Keyword.all.find? fun k => k.spelling = word with
  | some k => keyword k
  | none => identifier

end Token.Kind

end LetScript
