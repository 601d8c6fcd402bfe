import LetScript.Proofs.Syntax.Grammar

/-!
# Readers without their bounds

A reader returns a tree and the tokens after it, with the proof that these are fewer. For reasoning
about what is read the proof is in the way: two readers with different bounds have different types. Here
each reader is described by its `outcome`, the tree and the rest alone, in one equation that mentions the
outcomes of the readers it calls.

The readers of expressions call each other in the order of the levels of the grammar, and return to the
loosest level only after a token. `Level.induct` turns this into a principle of induction.
-/

namespace LetScript

/-- What a reader returns, without the bound on the tokens that it leaves. -/
def Phrase.outcome {α : Type} {bound : Nat} :
    Except Diagnostic (Phrase α bound) → Except Diagnostic (α × List Token)
  | .error d => .error d
  | .ok p => .ok (p.tree, p.rest)

open Grammar Phrase

@[simp] theorem outcome_error {α : Type} {bound : Nat} (d : Diagnostic) :
    outcome (.error d : Except Diagnostic (Phrase α bound)) = .error d := rfl

@[simp] theorem outcome_ok {α : Type} {bound : Nat} (tree : α) (rest : List Token)
    (h : rest.length < bound) : outcome (.ok ⟨tree, rest, h⟩) = .ok (tree, rest) := rfl

/-- A reader leaves fewer tokens than its bound. -/
theorem length_lt_of_outcome {α : Type} {bound : Nat} {x : Except Diagnostic (Phrase α bound)} {tree : α}
    {rest : List Token} (h : outcome x = .ok (tree, rest)) : rest.length < bound := by
  cases x with
  | error d => cases h
  | ok p => cases h; exact p.within

@[simp] theorem bind_ok {α β : Type} (a : α) (f : α → Except Diagnostic β) :
    (Except.ok a).bind f = f a := rfl

@[simp] theorem bind_error {α β : Type} (d : Diagnostic) (f : α → Except Diagnostic β) :
    (Except.error d).bind f = .error d := rfl

/-- Two readings in a row succeed if each of them does. -/
theorem bind_eq_ok_iff {α β : Type} {x : Except Diagnostic α} {f : α → Except Diagnostic β} {b : β} :
    x.bind f = .ok b ↔ ∃ a, x = .ok a ∧ f a = .ok b := by
  cases x with
  | error d => simp
  | ok a => simp

/-- Induction on the number of tokens and, for the same number, from the tightest level to the loosest:
each case may use all levels for fewer tokens. -/
theorem Grammar.Level.induct {P : Level → Nat → Prop}
    (primary : ∀ n, (∀ m < n, ∀ level, P level m) → P .primary n)
    (unary : ∀ n, (∀ m < n, ∀ level, P level m) → P .primary n → P .unary n)
    (layer : ∀ n l, (∀ m < n, ∀ level, P level m) → P (operandLevel l) n → P (.layer l) n)
    (expression : ∀ n, (∀ m < n, ∀ level, P level m) → P (.layer .equality) n → P .expression n)
    (level : Level) (n : Nat) : P level n := by
  induction n using Nat.strongRecOn generalizing level with
  | ind n ih =>
      have hprimary := primary n ih
      have hunary := unary n ih hprimary
      have hproduct := layer n .product ih hunary
      have hsum := layer n .sum ih hproduct
      have hcomparison := layer n .comparison ih hsum
      have hequality := layer n .equality ih hcomparison
      match level with
      | .primary => exact hprimary
      | .unary => exact hunary
      | .layer .product => exact hproduct
      | .layer .sum => exact hsum
      | .layer .comparison => exact hcomparison
      | .layer .equality => exact hequality
      | .expression => exact expression n ih hequality

namespace Reading

variable (r : Reading)

/-! ## Single tokens -/

theorem outcome_expect (kind : Token.Kind) (wanted : Expectation) (ts : List Token) :
    outcome (r.expect kind wanted ts) =
      match ts with
      | [] => .error (r.refuse wanted [])
      | t :: rest => if t.kind = kind then .ok (t, rest) else .error (r.refuse wanted (t :: rest)) := by
  cases ts with
  | nil => rfl
  | cons t rest => simp only [expect]; split <;> rfl

theorem outcome_terminator (wanted : Expectation) (ts : List Token) :
    outcome (r.terminator wanted ts) =
      match ts with
      | [] => if r.mode = .prompt then .ok ((), []) else .error (r.refuse wanted [])
      | t :: rest =>
        if t.kind = .semicolon then .ok ((), rest)
        else if r.mode = .prompt then .ok ((), t :: rest)
        else .error (r.refuse wanted (t :: rest)) := by
  cases ts with
  | nil => simp only [terminator]; split <;> rfl
  | cons t rest =>
      simp only [terminator]
      split
      · rfl
      · split <;> rfl

/-! ## Expressions -/

theorem outcome_expression (ts : List Token) :
    outcome (r.expression ts) =
      (outcome (r.layer .equality ts)).bind fun (left, rest) =>
        match rest with
        | [] => .ok (left, [])
        | sign :: more =>
          if sign.kind = .equal then
            (outcome (r.expression more)).bind fun (value, rest) =>
              match left with
              | .reference context name => .ok (.assign context name value, rest)
              | _ => .error (r.refuse .assignable (sign :: more))
          else .ok (left, sign :: more) := by
  rw [expression]
  cases r.layer .equality ts with
  | error d => rfl
  | ok p =>
      obtain ⟨left, rest, h⟩ := p
      cases rest with
      | nil => rfl
      | cons sign more =>
          simp only [outcome_ok, bind_ok]
          split
          · cases r.expression more with
            | error d => rfl
            | ok q => cases left <;> rfl
          · rfl

theorem outcome_layer (l : Layer) (ts : List Token) :
    outcome (r.layer l ts) =
      (outcome (r.operand l ts)).bind fun (left, rest) => outcome (r.chain l left rest) := by
  rw [layer]
  cases r.operand l ts with
  | error d => rfl
  | ok p =>
      obtain ⟨left, rest, h⟩ := p
      simp only [outcome_ok, bind_ok]
      cases r.chain l left rest <;> rfl

theorem outcome_chain (l : Layer) (left : Expr) (ts : List Token) :
    outcome (r.chain l left ts) =
      match ts with
      | [] => .ok (left, [])
      | op :: more =>
        if l.admits op.kind then
          (outcome (r.operand l more)).bind fun (right, rest) =>
            outcome (r.chain l (.binary (r.place op) op left right) rest)
        else .ok (left, op :: more) := by
  rw [chain.eq_def]
  cases ts with
  | nil => rfl
  | cons op more =>
      dsimp only
      split
      · cases r.operand l more with
        | error d => rfl
        | ok p =>
            obtain ⟨right, rest, h⟩ := p
            simp only [outcome_ok, bind_ok]
            cases r.chain l (.binary (r.place op) op left right) rest <;> rfl
      · rfl

theorem outcome_unary (ts : List Token) :
    outcome (r.unary ts) =
      match ts with
      | [] => .error (r.refuse .expression [])
      | t :: more =>
        if t.kind.isSign then
          (outcome (r.unary more)).bind fun (operand, rest) => .ok (.unary (r.place t) t operand, rest)
        else outcome (r.primary t more) := by
  rw [unary.eq_def]
  cases ts with
  | nil => rfl
  | cons t more =>
      dsimp only
      split
      · cases r.unary more <;> rfl
      · rfl

theorem outcome_primary (t : Token) (more : List Token) :
    outcome (r.primary t more) =
      if t.kind.isLiteral then .ok (.literal (r.place t) t, more)
      else if t.kind = .identifier then .ok (.reference (r.place t) t, more)
      else if t.kind = .leftParen then
        (outcome (r.expression more)).bind fun (inner, rest) =>
          (outcome (r.expect .rightParen .closingParen rest)).bind fun (_, rest) =>
            .ok (.group (r.place t) inner, rest)
      else .error (r.refuse .expression (t :: more)) := by
  rw [primary]
  split
  · rfl
  · split
    · rfl
    · split
      · cases r.expression more with
        | error d => rfl
        | ok p =>
            obtain ⟨inner, rest, h⟩ := p
            simp only [outcome_ok, bind_ok]
            cases r.expect .rightParen .closingParen rest <;> rfl
      · rfl

/-- The reader of the expressions of a level. -/
def readLevel (r : Reading) : Level → List Token → Except Diagnostic (Expr × List Token)
  | .expression, ts => outcome (r.expression ts)
  | .layer l, ts => outcome (r.layer l ts)
  | .unary, ts => outcome (r.unary ts)
  | .primary, [] => .error (r.refuse .expression [])
  | .primary, t :: more => outcome (r.primary t more)

theorem outcome_operand (l : Layer) (ts : List Token) :
    outcome (r.operand l ts) = r.readLevel (operandLevel l) ts := by
  cases l <;> rw [operand] <;> rfl

/-! ## Statements -/

theorem outcome_declaration (ts : List Token) :
    outcome (r.declaration ts) =
      (outcome (r.expect .identifier .nameAfterLet (mutableMark ts).rest)).bind fun (name, rest) =>
        (outcome (r.expect .equal .initializer rest)).bind fun (_, rest) =>
          (outcome (r.expression rest)).bind fun (init, rest) =>
            (outcome (r.terminator .semicolonAfterExpression rest)).bind fun (_, rest) =>
              .ok (.declare (r.place name) name (mutableMark ts).tree init, rest) := by
  simp only [declaration]
  cases r.expect .identifier .nameAfterLet (mutableMark ts).rest with
  | error d => rfl
  | ok p =>
      simp only [outcome, bind_ok]
      cases r.expect .equal .initializer p.rest with
      | error d => rfl
      | ok q =>
          simp only [bind_ok]
          cases r.expression q.rest with
          | error d => rfl
          | ok u =>
              simp only [bind_ok]
              cases r.terminator .semicolonAfterExpression u.rest <;> rfl

theorem outcome_printing (t : Token) (ts : List Token) :
    outcome (r.printing t ts) =
      (outcome (r.expression ts)).bind fun (value, rest) =>
        (outcome (r.terminator .semicolonAfterStatement rest)).bind fun (_, rest) =>
          .ok (.println (r.place t) value, rest) := by
  rw [printing]
  cases r.expression ts with
  | error d => rfl
  | ok p =>
      simp only [outcome, bind_ok]
      cases r.terminator .semicolonAfterStatement p.rest <;> rfl

theorem outcome_evaluation (t : Token) (more : List Token) :
    outcome (r.evaluation t more) =
      (outcome (r.expression (t :: more))).bind fun (value, rest) =>
        (outcome (r.terminator .semicolonAfterExpression rest)).bind fun (_, rest) =>
          .ok (.expr (r.place t) value, rest) := by
  rw [evaluation]
  cases r.expression (t :: more) with
  | error d => rfl
  | ok p =>
      simp only [outcome, bind_ok]
      cases r.terminator .semicolonAfterExpression p.rest <;> rfl

theorem outcome_statement (t : Token) (more : List Token) :
    outcome (r.statement t more) =
      if t.kind = .keyword .letKw then outcome (r.declaration more)
      else if t.kind = .keyword .printlnKw then outcome (r.printing t more)
      else if t.kind = .leftBrace then
        (outcome (r.body more)).bind fun (statements, rest) => .ok (.block (r.place t) statements, rest)
      else outcome (r.evaluation t more) := by
  rw [statement]
  split
  · cases r.declaration more <;> rfl
  · split
    · cases r.printing t more <;> rfl
    · split
      · cases r.body more <;> rfl
      · rfl

theorem outcome_body (ts : List Token) :
    outcome (r.body ts) =
      match ts with
      | [] => .error (r.refuse .closingBrace [])
      | t :: more =>
        if t.kind = .rightBrace then .ok ([], more)
        else
          (outcome (r.statement t more)).bind fun (first, rest) =>
            (outcome (r.body rest)).bind fun (others, rest) => .ok (first :: others, rest) := by
  rw [body.eq_def]
  cases ts with
  | nil => rfl
  | cons t more =>
      dsimp only
      split
      · rfl
      · cases r.statement t more with
        | error d => rfl
        | ok p =>
            simp only [outcome, bind_ok]
            cases r.body p.rest <;> rfl

/-- The statements of a source are read one after the other. -/
theorem program_eq (ts : List Token) :
    r.program ts =
      match ts with
      | [] => .ok []
      | t :: more =>
        (outcome (r.statement t more)).bind fun (first, rest) =>
          if r.mode = .prompt then .ok [first]
          else (r.program rest).bind fun others => .ok (first :: others) := by
  rw [program.eq_def]
  cases ts with
  | nil => rfl
  | cons t more =>
      dsimp only
      cases r.statement t more with
      | error d => rfl
      | ok p =>
          simp only [outcome, bind_ok]
          split
          · rfl
          · cases r.program p.rest <;> rfl

end Reading

end LetScript
