import LetScript.Tree.Basic

/-!
# Outlines

The nodes of a tree in pre-order, each by its kind and the line of its place.
-/

namespace LetScript

/-- A node of an outline: kind and line. -/
def Context.node (kind : String) (c : Context) : Text :=
  Text.ofString kind ++ Text.ofString "@" ++ Text.ofInt c.line

/-- The nodes of an expression. -/
def Expr.outline : Expr → List Text
  | binary c _ left right => c.node "binary" :: (left.outline ++ right.outline)
  | group c inner => c.node "group" :: inner.outline
  | literal c _ => [c.node "literal"]
  | unary c _ operand => c.node "unary" :: operand.outline
  | reference c _ => [c.node "variable"]
  | assign c _ value => c.node "assign" :: value.outline
  | absent => []
  | foreign c _ => [c.node "foreign"]

mutual

/-- The nodes of a statement. -/
def Stmt.outline : Stmt → List Text
  | .expr c value => c.node "expr" :: value.outline
  | .println c value => c.node "println" :: value.outline
  | .declare c _ isMutable init => c.node (if isMutable then "letmut" else "let") :: init.outline
  | .block c body => c.node "block" :: Stmt.outlines body
  | .absent => []
  | .foreign c _ => [c.node "foreign"]

/-- The nodes of statements. -/
def Stmt.outlines : List Stmt → List Text
  | [] => []
  | s :: rest => s.outline ++ Stmt.outlines rest

end

end LetScript
