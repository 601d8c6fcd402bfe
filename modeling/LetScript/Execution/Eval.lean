import LetScript.Diagnostic.Basic
import LetScript.Scope.Basic
import LetScript.Tree.Basic
import LetScript.Value.Operator

/-!
# Evaluation

The value of an expression in a scope, and the scope after it. A failure leaves the scope as it is at
that moment: assignments made before it stay. Both operands of an infix operator are evaluated before
the failure of either is reported, that of the left one first.
-/

namespace LetScript

/-- The value of a literal. -/
def Token.value (t : Token) : Value :=
  match t.kind with
  | .string => .ofText t.text
  | .number => .ofNumber t.number
  | .keyword .trueKw => .ofBool true
  | .keyword .falseKw => .ofBool false
  | _ => .nil

/-- An outcome with its fault put at a place. -/
def Context.place (c : Context) : Except Fault Value → Except Diagnostic Value
  | .ok v => .ok v
  | .error fault => .error ⟨c, fault⟩

/-- The place of a node that is absent. -/
def Context.nowhere : Context := ⟨[], 0, []⟩

/-- How the evaluator names the kind of a node that is absent. -/
def absentName : Text := Text.ofString "<nil>"

/-- The outcome of an infix operator on the outcomes of its operands. -/
def Expr.combine (c : Context) (op : Token) (left right : Except Diagnostic Value) :
    Except Diagnostic Value :=
  match left, right with
  | .error d, _ => .error d
  | .ok _, .error d => .error d
  | .ok v, .ok w => c.place (Value.infixOp op.kind v w)

/-- The value of an expression, and the scope after it. An assignment yields the value that the name had
before, and looks at its right side only if the name may be assigned to.

No source spells an absent expression. It has no place to which a diagnostic could refer, so a program that is given
one by its host breaks off there; evaluation is total, and refuses it with no place instead. -/
def Expr.eval : Expr → Scope → Except Diagnostic Value × Scope
  | .literal _ token, s => (.ok token.value, s)
  | .group _ inner, s => inner.eval s
  | .unary c op operand, s =>
    match operand.eval s with
    | (.error d, s') => (.error d, s')
    | (.ok v, s') => (c.place (Value.signOp op.kind v), s')
  | .binary c op left right, s =>
    match left.eval s with
    | (l, s₁) =>
      match right.eval s₁ with
      | (r, s₂) => (Expr.combine c op l r, s₂)
  | .reference c name, s =>
    match s.get? name.lexeme with
    | none => (.error ⟨c, .notDefined name.lexeme⟩, s)
    | some b => (.ok b.value, s)
  | .assign c name value, s =>
    match s.get? name.lexeme with
    | none => (.error ⟨c, .notDefined name.lexeme⟩, s)
    | some b =>
      if b.isMutable then
        match value.eval s with
        | (.error d, s') => (.error d, s')
        | (.ok v, s') => (.ok b.value, s'.assign name.lexeme v)
      else (.error ⟨c, .immutable name.lexeme⟩, s)
  | .absent, s => (.error ⟨.nowhere, .foreignExpression absentName⟩, s)
  | .foreign c typeName, s => (.error ⟨c, .foreignExpression typeName⟩, s)

end LetScript
