import LetScript.Tree.Basic

/-!
# Parenthesised form

A tree as nested lists, each with its operator or keyword at the head: `(+ 1 (* 2 3))`.
-/

namespace LetScript

/-- A literal: numbers and strings by their value, all others by their source text. -/
def Token.literalText (t : Token) : Text :=
  match t.kind with
  | .number => numberText t.number
  | .string => Text.ofString "\"" ++ t.text ++ Text.ofString "\""
  | _ => t.lexeme

/-- A list with a head and elements. -/
def Text.listForm (head : Text) (elements : List Text) : Text :=
  Text.ofString "(" ++ head ++ elements.flatMap (Text.ofString " " ++ ·) ++ Text.ofString ")"

/-- The parenthesised form of an expression. -/
def Expr.sexpr : Expr → Text
  | binary _ op left right => Text.listForm op.lexeme [left.sexpr, right.sexpr]
  | group _ inner => Text.listForm (Text.ofString "group") [inner.sexpr]
  | literal _ token => token.literalText
  | unary _ op operand => Text.listForm op.lexeme [operand.sexpr]
  | reference _ name => name.lexeme
  | assign _ name value => Text.listForm (Text.ofString "= " ++ name.lexeme) [value.sexpr]
  | absent => Text.ofString "<nil>"
  | foreign _ _ => Text.ofString "<unknown>"

/-- The head of a declaration. -/
def Text.declarationHead (isMutable : Bool) (name : Text) : Text :=
  Text.ofString "let " ++ (if isMutable then Text.ofString "mut " else []) ++ name

mutual

/-- The parenthesised form of a statement. -/
def Stmt.sexpr : Stmt → Text
  | .expr _ value => Text.listForm (Text.ofString "expr") [value.sexpr]
  | .println _ value => Text.listForm (Text.ofString "println") [value.sexpr]
  | .declare _ name isMutable init =>
    Text.listForm (Text.declarationHead isMutable name.lexeme) [init.sexpr]
  | .block _ body => Text.listForm (Text.ofString "block") (Stmt.sexprs body)
  | .absent => Text.ofString "<nil>"
  | .foreign _ _ => Text.ofString "<unknown>"

/-- The parenthesised forms of statements. -/
def Stmt.sexprs : List Stmt → List Text
  | [] => []
  | s :: rest => s.sexpr :: Stmt.sexprs rest

end

/-- The parenthesised form of a program: one statement a line. -/
def Stmt.programText (program : List Stmt) : Text :=
  Text.join [Text.newline] (Stmt.sexprs program)

end LetScript
