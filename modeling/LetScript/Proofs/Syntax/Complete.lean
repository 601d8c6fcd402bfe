import Mathlib.Data.List.TakeWhile
import LetScript.Proofs.Syntax.Sound

/-!
# What is in the grammar is read

Tokens that spell a tree are read as this tree, and what follows them is left, provided that it cannot go
on the tree. Together with the other direction: reading a file succeeds exactly for the tokens that spell
a program, and a program is spelled by its tokens in one way only.
-/

namespace LetScript

open Grammar Phrase

namespace Reading

variable {r : Reading}

/-! ## Expressions -/

/-- The readers find the expression at the start of its tokens. For a layer of operators more is true:
the reader of the layer has the expression in its hands and looks for further operators. -/
def Finds (r : Reading) : Level → List Token → Expr → Prop
  | .layer l, ts, e =>
    ∀ rest, Ends (operandLevel l) rest → r.readLevel (.layer l) (ts ++ rest) = outcome (r.chain l e rest)
  | level, ts, e => ∀ rest, Ends level rest → r.readLevel level (ts ++ rest) = .ok (e, rest)

/-- A chain ends where no operator of its layer follows. -/
theorem outcome_chain_of_ends {l : Layer} {e : Expr} {rest : List Token} (h : Ends (.layer l) rest) :
    outcome (r.chain l e rest) = .ok (e, rest) := by
  rw [outcome_chain]
  cases rest with
  | nil => rfl
  | cons t more =>
      have ht : t.kind ∉ operators l := by
        have hc := h t rfl
        rw [continuers_layer, List.mem_append] at hc
        exact fun hop => hc (Or.inl hop)
      rw [← Layer.admits_iff] at ht
      simp [ht]

theorem Finds.readLevel {level : Level} {ts : List Token} {e : Expr} {rest : List Token}
    (h : Finds r level ts e) (hrest : Ends level rest) :
    r.readLevel level (ts ++ rest) = .ok (e, rest) := by
  cases level with
  | expression => exact h rest hrest
  | unary => exact h rest hrest
  | primary => exact h rest hrest
  | layer l =>
      have hops : Ends (operandLevel l) rest := by
        intro t ht hc
        refine hrest t ht ?_
        rw [continuers_layer]
        exact List.mem_append_right _ hc
      rw [h rest hops, outcome_chain_of_ends hrest]

theorem place_eq_anchor (r : Reading) (t : Token) : r.place t = anchor r.source t := rfl

theorem Finds.literal {t : Token} (ht : t.kind ∈ literals) :
    Finds r .primary [t] (.literal (anchor r.source t) t) := by
  intro rest _
  simp only [List.cons_append, List.nil_append, Reading.readLevel]
  rw [outcome_primary, if_pos (Token.Kind.isLiteral_iff.2 ht), place_eq_anchor]

theorem Finds.reference {t : Token} (ht : t.kind = .identifier) :
    Finds r .primary [t] (.reference (anchor r.source t) t) := by
  intro rest _
  simp only [List.cons_append, List.nil_append, Reading.readLevel]
  rw [outcome_primary]
  simp [ht, Token.Kind.isLiteral, place_eq_anchor]

theorem Finds.group {opening closing : Token} {ts : List Token} {inner : Expr}
    (ho : opening.kind = .leftParen) (hc : closing.kind = .rightParen)
    (h : Finds r .expression ts inner) :
    Finds r .primary (opening :: ts ++ [closing]) (.group (anchor r.source opening) inner) := by
  intro rest _
  have hend : Ends .expression (closing :: rest) := .cons (by rw [hc]; decide)
  have hinner : outcome (r.expression (ts ++ closing :: rest)) = .ok (inner, closing :: rest) :=
    h.readLevel hend
  simp only [List.cons_append, List.append_assoc, List.nil_append, Reading.readLevel]
  rw [outcome_primary, hinner]
  simp [ho, hc, Token.Kind.isLiteral, outcome_expect, place_eq_anchor]

theorem Finds.primary {ts : List Token} {e : Expr} (hs : Spells r.source .primary ts e)
    (h : Finds r .primary ts e) : Finds r .unary ts e := by
  intro rest hrest
  have hread := h rest hrest
  obtain ⟨t, more, rfl, ht⟩ := hs.not_sign
  rw [← Token.Kind.isSign_iff] at ht
  simp only [List.cons_append, Reading.readLevel] at hread ⊢
  rw [outcome_unary]
  simp only [ht, Bool.false_eq_true, ↓reduceIte]
  exact hread

theorem Finds.unary {op : Token} {ts : List Token} {operand : Expr} (hop : op.kind ∈ signs)
    (h : Finds r .unary ts operand) :
    Finds r .unary (op :: ts) (.unary (anchor r.source op) op operand) := by
  intro rest hrest
  have hoperand : outcome (r.unary (ts ++ rest)) = .ok (operand, rest) := h rest hrest
  simp only [List.cons_append, Reading.readLevel]
  rw [outcome_unary]
  simp [Token.Kind.isSign_iff.2 hop, hoperand, place_eq_anchor]

theorem Finds.operand {l : Layer} {ts : List Token} {e : Expr} (h : Finds r (operandLevel l) ts e) :
    Finds r (.layer l) ts e := by
  intro rest hrest
  simp only [Reading.readLevel]
  rw [outcome_layer, outcome_operand, h.readLevel hrest, bind_ok]

theorem Finds.binary {l : Layer} {op : Token} {ts ts' : List Token} {left right : Expr}
    (hleft : Finds r (.layer l) ts left) (hop : op.kind ∈ operators l)
    (hright : Finds r (operandLevel l) ts' right) :
    Finds r (.layer l) (ts ++ op :: ts') (.binary (anchor r.source op) op left right) := by
  intro rest hrest
  -- the operator itself ends the left operand, whatever follows it
  have hend : Ends (operandLevel l) (op :: ts' ++ rest) := .cons (not_mem_continuers_operandLevel hop)
  have hchain := hleft _ hend
  rw [List.append_assoc, hchain, List.cons_append, outcome_chain]
  simp only [Layer.admits_iff.2 hop, ↓reduceIte]
  rw [outcome_operand, hright.readLevel hrest, bind_ok, place_eq_anchor]

theorem Finds.equality {ts : List Token} {e : Expr} (h : Finds r (.layer .equality) ts e) :
    Finds r .expression ts e := by
  intro rest hrest
  have hops : Ends (.layer .equality) rest := by
    intro t ht hc
    exact hrest t ht (List.mem_cons_of_mem _ hc)
  have hlayer : outcome (r.layer .equality (ts ++ rest)) = .ok (e, rest) := h.readLevel hops
  simp only [Reading.readLevel]
  rw [outcome_expression, hlayer, bind_ok]
  cases rest with
  | nil => rfl
  | cons t more =>
      have ht : t.kind ≠ .equal := by
        intro he
        exact hrest t rfl (by rw [he]; exact List.mem_cons_self)
      simp [ht]

theorem Finds.assign {name sign : Token} {ts : List Token} {value : Expr}
    (hname : name.kind = .identifier) (hsign : sign.kind = .equal) (h : Finds r .expression ts value) :
    Finds r .expression (name :: sign :: ts) (.assign (anchor r.source name) name value) := by
  intro rest hrest
  -- the left side is read as an equality that consists of the name alone
  have hunary : Finds r .unary [name] (.reference (anchor r.source name) name) :=
    .primary (.reference hname) (.reference hname)
  have hequality : Finds r (.layer .equality) [name] (.reference (anchor r.source name) name) :=
    .operand (.operand (.operand (.operand hunary)))
  have hend : Ends (.layer .equality) (sign :: (ts ++ rest)) := .cons (by rw [hsign]; decide)
  have hleft : outcome (r.layer .equality (name :: sign :: (ts ++ rest))) =
      .ok (.reference (anchor r.source name) name, sign :: (ts ++ rest)) := hequality.readLevel hend
  have hvalue : outcome (r.expression (ts ++ rest)) = .ok (value, rest) := h rest hrest
  simp only [List.cons_append, Reading.readLevel]
  rw [outcome_expression, hleft]
  simp [hsign, hvalue]

/-- The readers find every expression of the grammar. -/
theorem finds_of_spells {level : Level} {ts : List Token} {e : Expr}
    (h : Spells r.source level ts e) : Finds r level ts e := by
  induction h with
  | assign hname hsign _ ih => exact .assign hname hsign ih
  | equality _ ih => exact .equality ih
  | operand _ ih => exact .operand ih
  | binary _ hop _ ihl ihr => exact .binary ihl hop ihr
  | unary hop _ ih => exact .unary hop ih
  | primary hs ih => exact .primary hs ih
  | literal ht => exact .literal ht
  | reference ht => exact .reference ht
  | group ho _ hc ih => exact .group ho hc ih

/-- An expression and a token that cannot go on it are read as the expression. -/
theorem outcome_expression_of_spells {ts : List Token} {e : Expr} {t : Token}
    (h : Spells r.source .expression ts e) (ht : t.kind ∉ continuers .expression) (rest : List Token) :
    outcome (r.expression (ts ++ t :: rest)) = .ok (e, t :: rest) :=
  (finds_of_spells h).readLevel (.cons ht)

/-! ## Statements -/

theorem outcome_terminator_of_semicolon {stop : Token} (h : stop.kind = .semicolon)
    (wanted : Expectation) (rest : List Token) :
    outcome (r.terminator wanted (stop :: rest)) = .ok ((), rest) := by
  simp [outcome_terminator, h]

theorem outcome_expect_of_kind {t : Token} {kind : Token.Kind} (h : t.kind = kind)
    (wanted : Expectation) (rest : List Token) :
    outcome (r.expect kind wanted (t :: rest)) = .ok (t, rest) := by
  simp [outcome_expect, h]

/-- A declaration is found after its keyword, and after its mark if it has one. -/
theorem outcome_declaration_of_spells {ts : List Token} {isMutable : Bool} {name sign stop : Token}
    {used : List Token} {init : Expr} {rest : List Token} (hname : name.kind = .identifier)
    (hsign : sign.kind = .equal) (hs : Spells r.source .expression used init)
    (hstop : stop.kind = .semicolon) (htree : (mutableMark ts).tree = isMutable)
    (hrest : (mutableMark ts).rest = name :: sign :: used ++ stop :: rest) :
    outcome (r.declaration ts) = .ok (.declare (anchor r.source name) name isMutable init, rest) := by
  have hinit := outcome_expression_of_spells hs (by rw [hstop]; decide) rest
  rw [outcome_declaration, hrest, List.cons_append, outcome_expect_of_kind hname, bind_ok]
  dsimp only
  rw [List.cons_append, outcome_expect_of_kind hsign, bind_ok]
  dsimp only
  rw [hinit, bind_ok]
  dsimp only
  rw [outcome_terminator_of_semicolon hstop, bind_ok, htree, place_eq_anchor]

/-- The reader finds the statement at the start of its tokens. It does not start with a closing brace, so
a block does not end before it. -/
def FindsStmt (r : Reading) (ts : List Token) (s : Stmt) : Prop :=
  ∃ t more, ts = t :: more ∧ t.kind ≠ .rightBrace ∧
    ∀ rest, outcome (r.statement t (more ++ rest)) = .ok (s, rest)

theorem FindsStmt.declare {start name sign stop : Token} {ts : List Token} {init : Expr}
    (hstart : start.kind = .keyword .letKw) (hname : name.kind = .identifier)
    (hsign : sign.kind = .equal) (hs : Spells r.source .expression ts init)
    (hstop : stop.kind = .semicolon) :
    FindsStmt r (start :: name :: sign :: ts ++ [stop])
      (.declare (anchor r.source name) name false init) := by
  refine ⟨start, _, rfl, by simp [hstart], fun rest => ?_⟩
  rw [outcome_statement, if_pos hstart]
  exact outcome_declaration_of_spells hname hsign hs hstop (by simp [mutableMark, hname])
    (by simp [mutableMark, hname])

theorem FindsStmt.declareMutable {start mark name sign stop : Token} {ts : List Token} {init : Expr}
    (hstart : start.kind = .keyword .letKw) (hmark : mark.kind = .keyword .mutKw)
    (hname : name.kind = .identifier) (hsign : sign.kind = .equal)
    (hs : Spells r.source .expression ts init) (hstop : stop.kind = .semicolon) :
    FindsStmt r (start :: mark :: name :: sign :: ts ++ [stop])
      (.declare (anchor r.source name) name true init) := by
  refine ⟨start, _, rfl, by simp [hstart], fun rest => ?_⟩
  rw [outcome_statement, if_pos hstart]
  exact outcome_declaration_of_spells hname hsign hs hstop (by simp [mutableMark, hmark])
    (by simp [mutableMark, hmark])

theorem FindsStmt.println {start stop : Token} {ts : List Token} {value : Expr}
    (hstart : start.kind = .keyword .printlnKw) (hs : Spells r.source .expression ts value)
    (hstop : stop.kind = .semicolon) :
    FindsStmt r (start :: ts ++ [stop]) (.println (anchor r.source start) value) := by
  refine ⟨start, ts ++ [stop], rfl, by simp [hstart], fun rest => ?_⟩
  have hvalue := outcome_expression_of_spells hs (by rw [hstop]; decide) rest
  rw [outcome_statement, if_neg (by simp [hstart]), if_pos hstart, outcome_printing, List.append_assoc,
    List.cons_append, List.nil_append, hvalue, bind_ok]
  dsimp only
  rw [outcome_terminator_of_semicolon hstop, bind_ok, place_eq_anchor]

theorem FindsStmt.expr {first stop : Token} {ts : List Token} {value : Expr}
    (hs : Spells r.source .expression (first :: ts) value) (hstop : stop.kind = .semicolon) :
    FindsStmt r (first :: ts ++ [stop]) (.expr (anchor r.source first) value) := by
  obtain ⟨t, more, heq, ht⟩ := hs.starts
  cases heq
  obtain ⟨hlet, hprintln, hleft, hright⟩ := starters_ne ht
  refine ⟨first, ts ++ [stop], rfl, hright, fun rest => ?_⟩
  have hvalue := outcome_expression_of_spells hs (by rw [hstop]; decide) rest
  rw [outcome_statement, if_neg hlet, if_neg hprintln, if_neg hleft, outcome_evaluation,
    List.append_assoc, List.cons_append, List.nil_append]
  rw [List.cons_append] at hvalue
  rw [hvalue, bind_ok]
  dsimp only
  rw [outcome_terminator_of_semicolon hstop, bind_ok, place_eq_anchor]

/-- The reader of a block finds the statements before a closing brace. -/
def FindsBody (r : Reading) (ts : List Token) (statements : List Stmt) : Prop :=
  ∀ closing rest, closing.kind = .rightBrace →
    outcome (r.body (ts ++ closing :: rest)) = .ok (statements, rest)

theorem FindsStmt.block {opening closing : Token} {ts : List Token} {body : List Stmt}
    (ho : opening.kind = .leftBrace) (hc : closing.kind = .rightBrace) (h : FindsBody r ts body) :
    FindsStmt r (opening :: ts ++ [closing]) (.block (anchor r.source opening) body) := by
  refine ⟨opening, ts ++ [closing], rfl, by simp [ho], fun rest => ?_⟩
  rw [outcome_statement, if_neg (by simp [ho]), if_neg (by simp [ho]), if_pos ho, List.append_assoc,
    List.cons_append, List.nil_append, h closing rest hc, bind_ok, place_eq_anchor]

theorem FindsBody.nil : FindsBody r [] [] := by
  intro closing rest hc
  rw [outcome_body]
  simp [hc]

theorem FindsBody.cons {ts ts' : List Token} {first : Stmt} {others : List Stmt}
    (hfirst : FindsStmt r ts first) (hothers : FindsBody r ts' others) :
    FindsBody r (ts ++ ts') (first :: others) := by
  intro closing rest hc
  obtain ⟨t, more, rfl, ht, hread⟩ := hfirst
  rw [outcome_body]
  simp only [List.append_assoc, List.cons_append, ht, ↓reduceIte]
  rw [hread, bind_ok]
  dsimp only
  rw [hothers closing rest hc, bind_ok]

mutual

theorem findsStmt_of_spells {ts : List Token} {s : Stmt} (h : SpellsStmt r.source ts s) :
    FindsStmt r ts s := by
  match h with
  | .declare hstart hname hsign hs hstop => exact .declare hstart hname hsign hs hstop
  | .declareMutable hstart hmark hname hsign hs hstop =>
      exact .declareMutable hstart hmark hname hsign hs hstop
  | .println hstart hs hstop => exact .println hstart hs hstop
  | .block ho hs hc => exact .block ho hc (findsBody_of_spells hs)
  | .expr hs hstop => exact .expr hs hstop

theorem findsBody_of_spells {ts : List Token} {body : List Stmt}
    (h : SpellsProgram r.source ts body) : FindsBody r ts body := by
  match h with
  | .nil => exact .nil
  | .cons hfirst hothers => exact .cons (findsStmt_of_spells hfirst) (findsBody_of_spells hothers)

end

theorem program_of_spells (hr : r.mode = .file) {ts : List Token} {statements : List Stmt}
    (h : SpellsProgram r.source ts statements) : r.program ts = .ok statements := by
  match h with
  | .nil => rw [program_eq]
  | .cons hfirst hothers =>
      obtain ⟨t, more, rfl, -, hread⟩ := findsStmt_of_spells hfirst
      rw [program_eq, List.cons_append]
      dsimp only
      rw [hread, bind_ok]
      simp only [hr, reduceCtorEq, ↓reduceIte]
      rw [program_of_spells hr hothers, bind_ok]

end Reading

/-! ## Files -/

theorem takeWhile_tokens {tokens : List Token} (h : ∀ t ∈ tokens, t.kind ≠ .endOfInput)
    (more : List Token) :
    (tokens ++ more).takeWhile (·.kind ≠ .endOfInput) =
      tokens ++ more.takeWhile (·.kind ≠ .endOfInput) := by
  apply List.takeWhile_append_of_pos
  intro t ht
  simpa using h t ht

/-- Tokens without an end of input are read as a file exactly if they spell its statements. -/
theorem parseTokens_file_iff (source : Text) {ts : List Token} (h : ∀ t ∈ ts, t.kind ≠ .endOfInput)
    (statements : List Stmt) :
    parseTokens source .file ts = .ok statements ↔
      SpellsProgram (if source = [] then Text.ofString "input" else source) ts statements := by
  have hsource : sourceOrDefault source = if source = [] then Text.ofString "input" else source := rfl
  simp only [parseTokens]
  have hall : ts.takeWhile (·.kind ≠ .endOfInput) = ts := by simpa using takeWhile_tokens h []
  rw [hall, ← hsource]
  exact ⟨Reading.program_sound rfl, Reading.program_of_spells (r := ⟨_, _, _⟩) rfl⟩

/-- Reading a file is deciding the grammar: tokens without an end of input are read as the statements that
they spell under the name of the source, they spell at most one program, and they are refused exactly if
they spell none. -/
theorem parseTokens_file_decides_grammar (source : Text) (ts : List Token)
    (h : ∀ t ∈ ts, t.kind ≠ .endOfInput) :
    let name := if source = [] then Text.ofString "input" else source
    (∀ statements, parseTokens source .file ts = .ok statements ↔ SpellsProgram name ts statements) ∧
      (∀ statements others, SpellsProgram name ts statements → SpellsProgram name ts others →
        statements = others) ∧
      ((∃ d, parseTokens source .file ts = .error d) ↔ ∀ statements, ¬ SpellsProgram name ts statements) := by
  intro name
  have hiff := parseTokens_file_iff source h
  refine ⟨hiff, ?_, ?_⟩
  · intro statements others h₁ h₂
    rw [← hiff] at h₁ h₂
    rw [h₁] at h₂
    cases h₂
    rfl
  · constructor
    · rintro ⟨d, hd⟩ statements hs
      rw [← hiff, hd] at hs
      cases hs
    · intro hnone
      cases hp : parseTokens source .file ts with
      | error d => exact ⟨d, rfl⟩
      | ok statements => exact absurd ((hiff statements).1 hp) (hnone statements)

/-- A token of a kind on a line, without text. -/
def Token.bare (kind : Token.Kind) (line : Int) : Token := ⟨kind, [], .none, line⟩

/-- The tokens of `x = -y * z;`, a line feed before the last name. -/
def assignedProduct : List Token :=
  [.bare .identifier 1, .bare .equal 1, .bare .minus 1, .bare .identifier 1, .bare .star 1,
   .bare .identifier 2, .bare .semicolon 2]

/-- An assignment takes the whole product on its right, and the sign only the first factor. -/
theorem parseTokens_assignedProduct :
    (∀ t ∈ assignedProduct, t.kind ≠ .endOfInput) ∧
      parseTokens [] .file assignedProduct = .ok
        [.expr (.atLine (Text.ofString "input") 1)
          (.assign (.atLine (Text.ofString "input") 1) (.bare .identifier 1)
            (.binary (.atLine (Text.ofString "input") 1) (.bare .star 1)
              (.unary (.atLine (Text.ofString "input") 1) (.bare .minus 1)
                (.reference (.atLine (Text.ofString "input") 1) (.bare .identifier 1)))
              (.reference (.atLine (Text.ofString "input") 2) (.bare .identifier 2))))] := by
  have hnoEnd : ∀ t ∈ assignedProduct, t.kind ≠ .endOfInput := by decide
  have hy : Spells (Text.ofString "input") .unary [.bare .identifier 1] _ := .primary (.reference rfl)
  have hz : Spells (Text.ofString "input") .unary [.bare .identifier 2] _ := .primary (.reference rfl)
  have hminus : Spells (Text.ofString "input") .unary (.bare .minus 1 :: [.bare .identifier 1]) _ :=
    .unary (by decide) hy
  have hproduct : Spells (Text.ofString "input") (.layer .product)
      ((.bare .minus 1 :: [.bare .identifier 1]) ++ .bare .star 1 :: [.bare .identifier 2]) _ :=
    .binary (.operand hminus) (by decide) hz
  have hassign : Spells (Text.ofString "input") .expression
      (.bare .identifier 1 :: .bare .equal 1 :: _) _ :=
    .assign rfl rfl (.equality (.operand (.operand (.operand hproduct))))
  have hstmt : SpellsStmt (Text.ofString "input") (_ ++ [.bare .semicolon 2]) _ := .expr hassign rfl
  have hprogram : SpellsProgram (Text.ofString "input") (_ ++ []) [_] := .cons hstmt .nil
  exact ⟨hnoEnd, ((parseTokens_file_decides_grammar [] assignedProduct hnoEnd).1 _).2 hprogram⟩

end LetScript
