import LetScript.Diagnostic.Context
import LetScript.Token.Basic

/-!
# Syntax trees

Expressions and statements. Every node keeps the place by which diagnostics refer to it. Beside the nodes
that a source can spell there are two for trees that a host builds: a child that is absent, and a node of
a kind that the language does not know.
-/

namespace LetScript

/-- An expression. -/
inductive Expr where
  /-- An infix operator and its operands. -/
  | binary (context : Context) (op : Token) (left right : Expr)
  /-- An expression in parentheses. -/
  | group (context : Context) (inner : Expr)
  /-- A number, a string, a truth value or nil. -/
  | literal (context : Context) (token : Token)
  /-- An operator before its operand. -/
  | unary (context : Context) (op : Token) (operand : Expr)
  /-- The value of a name. -/
  | reference (context : Context) (name : Token)
  /-- A new value for a name. -/
  | assign (context : Context) (name : Token) (value : Expr)
  /-- No expression. -/
  | absent
  /-- An expression of a kind that the language does not know. -/
  | foreign (context : Context) (typeName : Text)

instance : Inhabited Expr := ⟨.absent⟩

/-- A statement. -/
inductive Stmt where
  /-- An expression, evaluated for its value and effects. -/
  | expr (context : Context) (value : Expr)
  /-- Prints the value of an expression on a line of its own. -/
  | println (context : Context) (value : Expr)
  /-- Declares a name in the current scope. -/
  | declare (context : Context) (name : Token) (isMutable : Bool) (init : Expr)
  /-- Statements in a scope of their own. -/
  | block (context : Context) (body : List Stmt)
  /-- No statement. -/
  | absent
  /-- A statement of a kind that the language does not know. -/
  | foreign (context : Context) (typeName : Text)

instance : Inhabited Stmt := ⟨.absent⟩

end LetScript
