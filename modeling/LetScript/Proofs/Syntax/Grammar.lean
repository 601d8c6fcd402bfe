import LetScript.Tree.Parser

/-!
# The grammar of programs

Which tokens spell which tree, said without a reader. Expressions form levels, from assignments down to
primary expressions; the operands of a layer of infix operators belong to the next tighter level, and a
chain of such operators nests to the left. Every node stands at the line of one of its tokens.
-/

namespace LetScript.Grammar

/-- The levels of expressions, the loosest first. -/
inductive Level where
  | expression
  /-- A layer of infix operators. -/
  | layer (l : Layer)
  | unary
  | primary

/-- The infix operators of a layer. -/
def operators : Layer → List Token.Kind
  | .equality => [.bangEqual, .equalEqual]
  | .comparison => [.greater, .greaterEqual, .less, .lessEqual]
  | .sum => [.minus, .plus]
  | .product => [.slash, .star]

/-- The level of the operands of a layer. -/
def operandLevel : Layer → Level
  | .equality => .layer .comparison
  | .comparison => .layer .sum
  | .sum => .layer .product
  | .product => .unary

/-- The operators that stand before their operand. -/
def signs : List Token.Kind := [.bang, .minus]

/-- The tokens that are expressions by themselves, names apart. -/
def literals : List Token.Kind :=
  [.number, .string, .keyword .trueKw, .keyword .falseKw, .keyword .nilKw]

/-- The place of a tree in a source: the line of one of its tokens, in the root part. -/
def anchor (source : Text) (t : Token) : Context := ⟨source, t.line, Text.ofString "root"⟩

/-- The tokens spell the expression at a level, and nothing is left of them. -/
inductive Spells (source : Text) : Level → List Token → Expr → Prop
  /-- A name, an equals sign and an expression are an assignment. -/
  | assign {name sign : Token} {ts : List Token} {value : Expr} :
      name.kind = .identifier → sign.kind = .equal → Spells source .expression ts value →
      Spells source .expression (name :: sign :: ts) (.assign (anchor source name) name value)
  /-- What is no assignment is an equality. -/
  | equality {ts : List Token} {e : Expr} :
      Spells source (.layer .equality) ts e → Spells source .expression ts e
  /-- An operand alone is a chain. -/
  | operand {l : Layer} {ts : List Token} {e : Expr} :
      Spells source (operandLevel l) ts e → Spells source (.layer l) ts e
  /-- A chain grows to the right. -/
  | binary {l : Layer} {op : Token} {ts ts' : List Token} {left right : Expr} :
      Spells source (.layer l) ts left → op.kind ∈ operators l →
      Spells source (operandLevel l) ts' right →
      Spells source (.layer l) (ts ++ op :: ts') (.binary (anchor source op) op left right)
  /-- A sign stands before its operand. -/
  | unary {op : Token} {ts : List Token} {operand : Expr} :
      op.kind ∈ signs → Spells source .unary ts operand →
      Spells source .unary (op :: ts) (.unary (anchor source op) op operand)
  /-- What has no sign is primary. -/
  | primary {ts : List Token} {e : Expr} : Spells source .primary ts e → Spells source .unary ts e
  | literal {t : Token} :
      t.kind ∈ literals → Spells source .primary [t] (.literal (anchor source t) t)
  | reference {t : Token} :
      t.kind = .identifier → Spells source .primary [t] (.reference (anchor source t) t)
  /-- Parentheses stay in the tree. -/
  | group {opening closing : Token} {ts : List Token} {inner : Expr} :
      opening.kind = .leftParen → Spells source .expression ts inner → closing.kind = .rightParen →
      Spells source .primary (opening :: ts ++ [closing]) (.group (anchor source opening) inner)

mutual

/-- The tokens spell the statement, and nothing is left of them. -/
inductive SpellsStmt (source : Text) : List Token → Stmt → Prop
  | declare {start name sign stop : Token} {ts : List Token} {init : Expr} :
      start.kind = .keyword .letKw → name.kind = .identifier → sign.kind = .equal →
      Spells source .expression ts init → stop.kind = .semicolon →
      SpellsStmt source (start :: name :: sign :: ts ++ [stop])
        (.declare (anchor source name) name false init)
  | declareMutable {start mark name sign stop : Token} {ts : List Token} {init : Expr} :
      start.kind = .keyword .letKw → mark.kind = .keyword .mutKw → name.kind = .identifier →
      sign.kind = .equal → Spells source .expression ts init → stop.kind = .semicolon →
      SpellsStmt source (start :: mark :: name :: sign :: ts ++ [stop])
        (.declare (anchor source name) name true init)
  | println {start stop : Token} {ts : List Token} {value : Expr} :
      start.kind = .keyword .printlnKw → Spells source .expression ts value →
      stop.kind = .semicolon →
      SpellsStmt source (start :: ts ++ [stop]) (.println (anchor source start) value)
  | block {opening closing : Token} {ts : List Token} {body : List Stmt} :
      opening.kind = .leftBrace → SpellsProgram source ts body → closing.kind = .rightBrace →
      SpellsStmt source (opening :: ts ++ [closing]) (.block (anchor source opening) body)
  | expr {first stop : Token} {ts : List Token} {value : Expr} :
      Spells source .expression (first :: ts) value → stop.kind = .semicolon →
      SpellsStmt source (first :: ts ++ [stop]) (.expr (anchor source first) value)

/-- The tokens spell the statements, one after the other, and nothing is left of them. -/
inductive SpellsProgram (source : Text) : List Token → List Stmt → Prop
  | nil : SpellsProgram source [] []
  | cons {ts ts' : List Token} {first : Stmt} {others : List Stmt} :
      SpellsStmt source ts first → SpellsProgram source ts' others →
      SpellsProgram source (ts ++ ts') (first :: others)

end

theorem SpellsProgram.append {source : Text} {ts ts' : List Token} {program others : List Stmt}
    (h : SpellsProgram source ts program) (h' : SpellsProgram source ts' others) :
    SpellsProgram source (ts ++ ts') (program ++ others) := by
  match h with
  | .nil => exact h'
  | .cons hfirst hrest =>
      rw [List.append_assoc]
      exact .cons hfirst (SpellsProgram.append hrest h')

/-! ## Terminators that are left out -/

/-- The tokens, with the terminators that a mode does without: at a prompt semicolons may be put in
anywhere, a file has all of them. -/
inductive Completed (mode : Mode) : List Token → List Token → Prop
  | nil : Completed mode [] []
  | kept {t : Token} {ts us : List Token} : Completed mode ts us → Completed mode (t :: ts) (t :: us)
  | added {stop : Token} {ts us : List Token} :
      mode = .prompt → stop.kind = .semicolon → Completed mode ts us → Completed mode ts (stop :: us)

namespace Completed

variable {mode : Mode} {ts us : List Token}

theorem refl (ts : List Token) : Completed mode ts ts := by
  induction ts with
  | nil => exact .nil
  | cons t ts ih => exact .kept ih

theorem append {ts' us' : List Token} (h : Completed mode ts us) (h' : Completed mode ts' us') :
    Completed mode (ts ++ ts') (us ++ us') := by
  induction h with
  | nil => exact h'
  | kept _ ih => exact .kept ih
  | added hmode hstop _ ih => exact .added hmode hstop ih

theorem eq_of_file (h : Completed .file ts us) : us = ts := by
  induction h with
  | nil => rfl
  | kept _ ih => rw [ih]
  | added hmode => cases hmode

theorem mem (h : Completed mode ts us) {t : Token} (ht : t ∈ us) : t ∈ ts ∨ t.kind = .semicolon := by
  induction h with
  | nil => exact Or.inl ht
  | kept _ ih =>
      rcases List.mem_cons.1 ht with rfl | ht
      · exact Or.inl List.mem_cons_self
      · exact (ih ht).imp (List.mem_cons_of_mem _) id
  | added _ hstop _ ih =>
      rcases List.mem_cons.1 ht with rfl | ht
      · exact Or.inr hstop
      · exact ih ht

end Completed

/-! ## What a derivation tells about its tokens -/

theorem Spells.of_unary {source : Text} {ts : List Token} {e : Expr} (h : Spells source .unary ts e) :
    Spells source .expression ts e :=
  .equality (.operand (.operand (.operand (.operand h))))

/-- A name is spelled by one token, whatever the level. -/
theorem Spells.reference_inv {source : Text} {level : Level} {ts : List Token} {e : Expr}
    {c : Context} {name : Token} (h : Spells source level ts e) (he : e = .reference c name) :
    ts = [name] ∧ name.kind = .identifier ∧ c = anchor source name := by
  induction h with
  | equality _ ih => exact ih he
  | operand _ ih => exact ih he
  | primary _ ih => exact ih he
  | reference ht => cases he; exact ⟨rfl, ht, rfl⟩
  | assign => cases he
  | binary => cases he
  | unary => cases he
  | literal => cases he
  | group => cases he

/-- The token kinds with which an expression can start. -/
def starters : List Token.Kind := .identifier :: .leftParen :: signs ++ literals

/-- An expression starts with a sign, a literal, a name or a parenthesis. -/
theorem Spells.starts {source : Text} {level : Level} {ts : List Token} {e : Expr}
    (h : Spells source level ts e) : ∃ t more, ts = t :: more ∧ t.kind ∈ starters := by
  induction h with
  | assign hname => exact ⟨_, _, rfl, by simp [starters, hname]⟩
  | equality _ ih => exact ih
  | operand _ ih => exact ih
  | binary _ _ _ ih =>
      obtain ⟨t, more, rfl, ht⟩ := ih
      exact ⟨t, _, rfl, ht⟩
  | unary hop => exact ⟨_, _, rfl, by simp [starters, hop]⟩
  | primary _ ih => exact ih
  | literal ht => exact ⟨_, _, rfl, by simp [starters, ht]⟩
  | reference ht => exact ⟨_, _, rfl, by simp [starters, ht]⟩
  | group ht => exact ⟨_, _, rfl, by simp [starters, ht]⟩

/-- No expression starts with a token that starts another statement or ends a block. -/
theorem starters_ne {kind : Token.Kind} (h : kind ∈ starters) :
    kind ≠ .keyword .letKw ∧ kind ≠ .keyword .printlnKw ∧ kind ≠ .leftBrace ∧ kind ≠ .rightBrace := by
  revert kind
  decide

theorem Spells.not_sign {source : Text} {ts : List Token} {e : Expr} (h : Spells source .primary ts e) :
    ∃ t more, ts = t :: more ∧ t.kind ∉ signs := by
  cases h with
  | @literal t ht =>
      have hd : ∀ kind ∈ literals, kind ∉ signs := by decide
      exact ⟨t, [], rfl, hd _ ht⟩
  | @reference t ht => exact ⟨t, [], rfl, by rw [ht]; decide⟩
  | @group t _ _ _ ht => exact ⟨t, _, rfl, by rw [ht]; decide⟩

/-- The token kinds that can go on an expression of a level. -/
def continuers : Level → List Token.Kind
  | .primary => []
  | .unary => []
  | .layer .product => operators .product
  | .layer .sum => operators .sum ++ operators .product
  | .layer .comparison => operators .comparison ++ (operators .sum ++ operators .product)
  | .layer .equality =>
    operators .equality ++ (operators .comparison ++ (operators .sum ++ operators .product))
  | .expression =>
    .equal :: operators .equality ++ (operators .comparison ++ (operators .sum ++ operators .product))

theorem continuers_layer (l : Layer) :
    continuers (.layer l) = operators l ++ continuers (operandLevel l) := by
  cases l <;> rfl

/-- The operators of a layer do not go on its operands. -/
theorem not_mem_continuers_operandLevel {l : Layer} {kind : Token.Kind} (h : kind ∈ operators l) :
    kind ∉ continuers (operandLevel l) := by
  revert kind
  cases l <;> decide

/-- An expression of a level ends before the tokens. -/
def Ends (level : Level) (rest : List Token) : Prop := ∀ t ∈ rest.head?, t.kind ∉ continuers level

theorem Ends.nil {level : Level} : Ends level [] := by
  intro t ht
  cases ht

theorem Ends.cons {level : Level} {t : Token} {rest : List Token} (h : t.kind ∉ continuers level) :
    Ends level (t :: rest) := by
  intro t' ht
  cases ht
  exact h

end LetScript.Grammar
