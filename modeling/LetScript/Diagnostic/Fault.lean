import LetScript.Token.Kind
import LetScript.Value.Basic

/-!
# Faults

The causes for which reading or running a program can fail. The class of a fault, its wording and whether
more input could mend it are functions of the cause.
-/

namespace LetScript

/-- The class of a fault. -/
inductive FaultClass where
  | runtime
  | operator
  | parse
  | name
  | lex
  /-- A class that the language does not know, by its number. -/
  | unknown (code : Int)
  deriving DecidableEq, Repr

namespace FaultClass

/-- The class with the given number. -/
def ofCode (code : Int) : FaultClass :=
  if code = 0 then runtime
  else if code = 1 then operator
  else if code = 2 then parse
  else if code = 3 then name
  else if code = 4 then lex
  else unknown code

/-- The name of a class. -/
def label : FaultClass → Text
  | runtime => Text.ofString "RuntimeError"
  | operator => Text.ofString "UnsupportedOperator"
  | parse => Text.ofString "ParseError"
  | name => Text.ofString "NameError"
  | lex => Text.ofString "LexError"
  | unknown _ => Text.ofString "UnknownError"

end FaultClass

/-- What the grammar asked for where a program departs from it. -/
inductive Expectation where
  | nameAfterLet
  | initializer
  | semicolonAfterExpression
  | semicolonAfterStatement
  | closingBrace
  | closingParen
  | expression
  /-- The left side of an assignment has to be a name. -/
  | assignable
  deriving DecidableEq, Repr

/-- The wording of an expectation. -/
def Expectation.message : Expectation → Text
  | nameAfterLet => Text.ofString "Expect identifier after let"
  | initializer => Text.ofString "Expect initialization"
  | semicolonAfterExpression => Text.ofString "Expect ';' after expression"
  | semicolonAfterStatement => Text.ofString "Expect ';' after statement"
  | closingBrace => Text.ofString "Expect '\x7d' after block"
  | closingParen => Text.ofString "Expect ')' after expression"
  | expression => Text.ofString "Expect expression"
  | assignable => Text.ofString "Invalid assignment value"

/-- A cause of failure. -/
inductive Fault where
  /-- No character is encoded at a byte offset. -/
  | invalidEncoding (offset : Nat)
  /-- No token starts with a character. -/
  | unexpectedCharacter (c : Char)
  /-- A string is not closed before the input ends. -/
  | unterminatedString
  /-- A token stands where the grammar does not admit it. -/
  | misplaced (wanted : Expectation) (lexeme : Text)
  /-- The input ends where the grammar does not admit it. -/
  | endedEarly (wanted : Expectation)
  | alreadyDeclared (name : Text)
  | notDefined (name : Text)
  | immutable (name : Text)
  /-- A token that is no operator is used as one. -/
  | unknownOperator (op : Token.Kind)
  | unsupportedOperand (op : Token.Kind) (operand : Value)
  | unsupportedOperands (op : Token.Kind) (left right : Value)
  | divisionByZero (dividend divisor : Float)
  /-- The output refused a line. -/
  | writeFailed (cause : Text)
  /-- A statement of a kind that the evaluator does not know. -/
  | foreignStatement (typeName : Text)
  /-- An expression of a kind that the evaluator does not know. -/
  | foreignExpression (typeName : Text)
  /-- A fault that the host states in its own words. -/
  | stated (cls : FaultClass) (reason : Text) (incomplete : Bool)

namespace Fault

/-- The class of a fault. -/
def cls : Fault → FaultClass
  | invalidEncoding _ | unexpectedCharacter _ | unterminatedString => .lex
  | misplaced _ _ | endedEarly _ => .parse
  | alreadyDeclared _ | notDefined _ | immutable _ => .name
  | unknownOperator _ | unsupportedOperand _ _ | unsupportedOperands _ _ _ => .operator
  | divisionByZero _ _ | writeFailed _ | foreignStatement _ | foreignExpression _ => .runtime
  | stated cls _ _ => cls

/-- Whether the input merely stopped too early, so that more of it could mend the fault. -/
def incomplete : Fault → Bool
  | unterminatedString | endedEarly _ => true
  | stated _ _ incomplete => incomplete
  | _ => false

/-- A value with its type, as messages mention it. -/
def operandText (v : Value) : Text := v.display ++ Text.ofString " of type " ++ v.type.name

/-- The wording of a fault. -/
def reason : Fault → Text
  | invalidEncoding offset => Text.ofString "Invalid UTF-8 encoding at byte " ++ Text.ofNat offset
  | unexpectedCharacter c => Text.ofString "Unexpected character '" ++ Text.ofChar c ++ Text.ofString "'"
  | unterminatedString => Text.ofString "Unterminated string"
  | misplaced wanted lexeme =>
    Text.ofString "Error at '" ++ lexeme ++ Text.ofString "': " ++ wanted.message
  | endedEarly wanted => wanted.message ++ Text.ofString " at end"
  | alreadyDeclared name =>
    Text.ofString "Name '" ++ name ++ Text.ofString "' has already been declared"
  | notDefined name => Text.ofString "Name '" ++ name ++ Text.ofString "' is not defined"
  | immutable name => Text.ofString "Name '" ++ name ++ Text.ofString "' is immutable"
  | unknownOperator op => Text.ofString "Unsupported operator '" ++ op.name ++ Text.ofString "'"
  | unsupportedOperand op operand =>
    Text.ofString "Operator '" ++ op.name ++ Text.ofString "' is not supported for " ++
      operandText operand
  | unsupportedOperands op left right =>
    Text.ofString "Operator '" ++ op.name ++ Text.ofString "' is not supported for " ++
      operandText left ++ Text.ofString " and " ++ operandText right
  | divisionByZero dividend divisor =>
    Text.ofString "Division by zero: " ++ numberText dividend ++ Text.ofString "/" ++
      numberText divisor
  | writeFailed cause => Text.ofString "Failed to write output: " ++ cause
  | foreignStatement typeName => Text.ofString "Unsupported statement " ++ typeName
  | foreignExpression typeName => Text.ofString "Unsupported expression " ++ typeName
  | stated _ reason _ => reason

end Fault

end LetScript
