import LetScript.Diagnostic.Fault

/-!
# Operators

What the operators of the language compute. Whether an operator applies depends on the types of its
operands only; the one exception is division, which has no value for a zero divisor.
-/

namespace LetScript

namespace Token.Kind

/-- The infix operators. -/
def isInfixOperator : Kind → Bool
  | plus | minus | star | slash | greater | greaterEqual | less | lessEqual | equalEqual | bangEqual => true
  | _ => false

/-- The operators that stand before their operand. -/
def isSignOperator : Kind → Bool
  | minus | bang => true
  | _ => false

end Token.Kind

namespace Value

/-- An infix operator on two numbers; `none` for a token that is no operator on numbers. -/
def arithmetic? (op : Token.Kind) (a b : Float) : Option (Except Fault Value) :=
  match op with
  | .plus => some (.ok (ofNumber (a + b)))
  | .minus => some (.ok (ofNumber (a - b)))
  | .star => some (.ok (ofNumber (a * b)))
  | .slash => some (if b == 0 then .error (.divisionByZero a b) else .ok (ofNumber (a / b)))
  | .greater => some (.ok (ofBool (decide (a > b))))
  | .greaterEqual => some (.ok (ofBool (decide (a ≥ b))))
  | .less => some (.ok (ofBool (decide (a < b))))
  | .lessEqual => some (.ok (ofBool (decide (a ≤ b))))
  | _ => none

/-- Why an infix operator does not apply to two operands. -/
def infixFault (op : Token.Kind) (left right : Value) : Fault :=
  if op.isInfixOperator then .unsupportedOperands op left right else .unknownOperator op

/-- An infix operator other than the two equalities. -/
def compute (op : Token.Kind) (left right : Value) : Except Fault Value :=
  if left.type = .number ∧ right.type = .number then
    match arithmetic? op left.number right.number with
    | some result => result
    | none => .error (infixFault op left right)
  else if op = .plus ∧ left.type = .string ∧ right.type = .string then
    .ok (ofText (left.text ++ right.text))
  else .error (infixFault op left right)

/-- The value of an infix operator. Equality is defined for all values, arithmetic and order for numbers,
addition also for strings, which it joins. -/
def infixOp (op : Token.Kind) (left right : Value) : Except Fault Value :=
  match op with
  | .equalEqual => .ok (ofBool (left.equal right))
  | .bangEqual => .ok (ofBool (!left.equal right))
  | op => compute op left right

/-- The value of an operator before its operand: numbers can be negated, and nothing else. -/
def signOp (op : Token.Kind) (operand : Value) : Except Fault Value :=
  if op = .minus ∧ operand.type = .number then .ok (ofNumber (-operand.number))
  else if op.isSignOperator then .error (.unsupportedOperand op operand)
  else .error (.unknownOperator op)

end Value

end LetScript
