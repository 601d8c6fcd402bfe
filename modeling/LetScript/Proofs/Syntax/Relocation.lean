import LetScript.Proofs.Lexical.Placement
import LetScript.Proofs.Syntax.Grammar

/-!
# Trees elsewhere

A tree keeps places and tokens, which may be given other places and lines without changing anything else. One
such change puts the same tree into another source and so many lines further down. Tokens that spell a tree
spell it there too.
-/

namespace LetScript

open Grammar

/-! ## Other places -/

/-- Other lines for tokens, and other places for trees. -/
structure Relabelling where
  line : Int → Int
  context : Context → Context

def Token.relabel (ρ : Relabelling) (t : Token) : Token := { t with line := ρ.line t.line }

@[simp] theorem Token.relabel_kind (ρ : Relabelling) (t : Token) : (t.relabel ρ).kind = t.kind := rfl

@[simp] theorem Token.relabel_lexeme (ρ : Relabelling) (t : Token) : (t.relabel ρ).lexeme = t.lexeme := rfl

def Expr.relabel (ρ : Relabelling) : Expr → Expr
  | .binary c op left right => .binary (ρ.context c) (op.relabel ρ) (left.relabel ρ) (right.relabel ρ)
  | .group c inner => .group (ρ.context c) (inner.relabel ρ)
  | .literal c token => .literal (ρ.context c) (token.relabel ρ)
  | .unary c op operand => .unary (ρ.context c) (op.relabel ρ) (operand.relabel ρ)
  | .reference c name => .reference (ρ.context c) (name.relabel ρ)
  | .assign c name value => .assign (ρ.context c) (name.relabel ρ) (value.relabel ρ)
  | .absent => .absent
  | .foreign c typeName => .foreign (ρ.context c) typeName

mutual

def Stmt.relabel (ρ : Relabelling) : Stmt → Stmt
  | .expr c value => .expr (ρ.context c) (value.relabel ρ)
  | .println c value => .println (ρ.context c) (value.relabel ρ)
  | .declare c name isMutable init => .declare (ρ.context c) (name.relabel ρ) isMutable (init.relabel ρ)
  | .block c body => .block (ρ.context c) (Stmt.relabelAll ρ body)
  | .absent => .absent
  | .foreign c typeName => .foreign (ρ.context c) typeName

def Stmt.relabelAll (ρ : Relabelling) : List Stmt → List Stmt
  | [] => []
  | stmt :: rest => stmt.relabel ρ :: Stmt.relabelAll ρ rest

end

/-! ## Further down -/

/-- Another place for a tree: the name of the source, and the lines between the old place and the new. -/
structure Relocation where
  source : Text
  shift : Int

def Context.relocate (ρ : Relocation) (c : Context) : Context := ⟨ρ.source, c.line + ρ.shift, c.part⟩

def Diagnostic.relocate (ρ : Relocation) (d : Diagnostic) : Diagnostic := ⟨d.context.relocate ρ, d.fault⟩

/-- All places move by the same lines. -/
def Relocation.labels (ρ : Relocation) : Relabelling := ⟨(· + ρ.shift), Context.relocate ρ⟩

def Expr.relocate (ρ : Relocation) (e : Expr) : Expr := e.relabel ρ.labels

def Stmt.relocate (ρ : Relocation) (stmt : Stmt) : Stmt := stmt.relabel ρ.labels

def Stmt.relocateAll (ρ : Relocation) (program : List Stmt) : List Stmt := Stmt.relabelAll ρ.labels program

theorem Diagnostic.relocate_relocate (ρ ρ' : Relocation) (d : Diagnostic) :
    (d.relocate ρ).relocate ρ' = d.relocate ⟨ρ'.source, ρ.shift + ρ'.shift⟩ := by
  simp [Diagnostic.relocate, Context.relocate, Int.add_assoc]

variable {source : Text} (ρ : Relocation)

theorem Grammar.Spells.relocate {level : Level} {ts : List Token} {e : Expr} (h : Spells source level ts e) :
    Spells ρ.source level (ts.map (Token.moved ρ.shift)) (e.relocate ρ) := by
  induction h with
  | assign hname hsign _ ih => exact .assign hname hsign ih
  | equality _ ih => exact .equality ih
  | operand _ ih => exact .operand ih
  | binary _ hop _ ihl ihr =>
      rw [List.map_append, List.map_cons]
      exact .binary ihl hop ihr
  | unary hop _ ih => exact .unary hop ih
  | primary _ ih => exact .primary ih
  | literal ht => exact .literal ht
  | reference ht => exact .reference ht
  | group ho _ hc ih =>
      rw [List.map_append, List.map_cons]
      exact .group ho ih hc

mutual

theorem Grammar.SpellsStmt.relocate {ts : List Token} {s : Stmt} (h : SpellsStmt source ts s) :
    SpellsStmt ρ.source (ts.map (Token.moved ρ.shift)) (s.relocate ρ) := by
  match h with
  | .declare hstart hname hsign hs hstop =>
      simp only [List.map_append, List.map_cons, List.map_nil]
      exact .declare hstart hname hsign (hs.relocate ρ) hstop
  | .declareMutable hstart hmark hname hsign hs hstop =>
      simp only [List.map_append, List.map_cons, List.map_nil]
      exact .declareMutable hstart hmark hname hsign (hs.relocate ρ) hstop
  | .println hstart hs hstop =>
      simp only [List.map_append, List.map_cons, List.map_nil]
      exact .println hstart (hs.relocate ρ) hstop
  | .block ho hbody hc =>
      simp only [List.map_append, List.map_cons, List.map_nil]
      exact .block ho (SpellsProgram.relocate hbody) hc
  | .expr hs hstop =>
      simp only [List.map_append, List.map_cons, List.map_nil]
      exact .expr (hs.relocate ρ) hstop

theorem Grammar.SpellsProgram.relocate {ts : List Token} {statements : List Stmt}
    (h : SpellsProgram source ts statements) :
    SpellsProgram ρ.source (ts.map (Token.moved ρ.shift)) (Stmt.relocateAll ρ statements) := by
  match h with
  | .nil => exact .nil
  | .cons hfirst hothers =>
      rw [List.map_append]
      exact .cons (SpellsStmt.relocate hfirst) (SpellsProgram.relocate hothers)

end

end LetScript
