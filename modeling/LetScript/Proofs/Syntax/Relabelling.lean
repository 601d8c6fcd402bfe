import LetScript.Proofs.Syntax.Finality
import LetScript.Proofs.Syntax.Relocation

/-!
# Reading tokens with other lines

A reader looks at the kinds of tokens and keeps the tokens. Their lines and the name of the source go into
the places of the tree and of the diagnostic, and nowhere else: to read tokens that have been given other
lines is to give other places to what has been read. There are two such changes of places here. One erases
them all, so that tokens which differ in their lines only are seen to be read alike. The other moves the end
of the input, which is seen in the diagnostics of sources that stopped early.
-/

namespace LetScript

open Grammar Phrase

/-! ## Other places -/

/-- Other lines for tokens, and other places for what is read from them or refused. -/
structure Rereading extends Relabelling where
  diagnostic : Diagnostic → Diagnostic

instance : Coe Rereading Relabelling := ⟨Rereading.toRelabelling⟩

namespace Rereading

section

variable {ρ : Rereading} {α β : Type}

/-- An outcome with other places, given how a result gets them. -/
def onOutcome (ρ : Rereading) (f : α → α) : Except Diagnostic α → Except Diagnostic α
  | .error d => .error (ρ.diagnostic d)
  | .ok a => .ok (f a)

/-- What has been read, and the tokens after it. -/
def onPhrase (ρ : Rereading) (f : α → α) (p : α × List Token) : α × List Token :=
  (f p.1, p.2.map (Token.relabel ρ))

/-- Two readings in a row can be relabelled if each of them can. -/
theorem onOutcome_bind {f : α → α} {g : β → β} {x : Except Diagnostic α} {k k' : α → Except Diagnostic β}
    (h : ∀ a, x = .ok a → k' (f a) = ρ.onOutcome g (k a)) :
    (ρ.onOutcome f x).bind k' = ρ.onOutcome g (x.bind k) := by
  cases x with
  | error d => rfl
  | ok a => exact h a rfl

/-- What has been read is only wrapped up. -/
theorem onOutcome_map {f : α → α} {g : β → β} {wrap wrap' : α → β} {x : Except Diagnostic (α × List Token)}
    (h : ∀ a, wrap' (f a) = g (wrap a)) :
    ((ρ.onOutcome (ρ.onPhrase f) x).bind fun p => .ok (wrap' p.1, p.2)) =
      ρ.onOutcome (ρ.onPhrase g) (x.bind fun p => .ok (wrap p.1, p.2)) := by
  refine onOutcome_bind fun p _ => ?_
  rw [onOutcome, onPhrase, h, onPhrase]

end

/-- What a reading gives places to gets the other ones in another reading. -/
structure Fits (ρ : Rereading) (r r' : Reading) : Prop where
  mode : r'.mode = r.mode
  place : ∀ t, r'.place (t.relabel ρ) = ρ.context (r.place t)
  refuse : ∀ wanted ts, r'.refuse wanted (ts.map (Token.relabel ρ)) = ρ.diagnostic (r.refuse wanted ts)

end Rereading

namespace Reading

variable {ρ : Rereading} {r r' : Reading}

/-! ## Single tokens -/

theorem expect_relabel (h : ρ.Fits r r') (kind : Token.Kind) (wanted : Expectation) (ts : List Token) :
    outcome (r'.expect kind wanted (ts.map (Token.relabel ρ))) =
      ρ.onOutcome (ρ.onPhrase (Token.relabel ρ)) (outcome (r.expect kind wanted ts)) := by
  rw [outcome_expect, outcome_expect]
  cases ts with
  | nil => exact congrArg Except.error (h.refuse wanted [])
  | cons t rest =>
      by_cases hkind : t.kind = kind
      · simp only [List.map_cons, Token.relabel_kind, hkind, ↓reduceIte]
        rfl
      · simp only [List.map_cons, Token.relabel_kind, hkind, ↓reduceIte]
        exact congrArg Except.error (h.refuse wanted (t :: rest))

theorem terminator_relabel (h : ρ.Fits r r') (wanted : Expectation) (ts : List Token) :
    outcome (r'.terminator wanted (ts.map (Token.relabel ρ))) =
      ρ.onOutcome (ρ.onPhrase id) (outcome (r.terminator wanted ts)) := by
  rw [outcome_terminator, outcome_terminator, h.mode]
  cases ts with
  | nil =>
      simp only [List.map_nil]
      split
      · rfl
      · exact congrArg Except.error (h.refuse wanted [])
  | cons t rest =>
      by_cases hkind : t.kind = .semicolon
      · simp only [List.map_cons, Token.relabel_kind, hkind, ↓reduceIte]
        rfl
      · simp only [List.map_cons, Token.relabel_kind, hkind, ↓reduceIte]
        split
        · rfl
        · exact congrArg Except.error (h.refuse wanted (t :: rest))

/-! ## Expressions -/

/-- To read an expression of the level from `n` tokens with other lines is to give it other places. -/
def RelabelsAt (ρ : Rereading) (r r' : Reading) (level : Level) (n : Nat) : Prop :=
  ∀ ts, ts.length = n → r'.readLevel level (ts.map (Token.relabel ρ)) =
    ρ.onOutcome (ρ.onPhrase (Expr.relabel ρ)) (r.readLevel level ts)

theorem primary_relabels (h : ρ.Fits r r') {n : Nat} (ih : ∀ m < n, ∀ level, RelabelsAt ρ r r' level m) :
    RelabelsAt ρ r r' .primary n := by
  intro ts hn
  cases ts with
  | nil => exact congrArg Except.error (h.refuse .expression [])
  | cons t more =>
      simp only [List.map_cons, readLevel]
      rw [outcome_primary, outcome_primary, h.place]
      simp only [Token.relabel_kind]
      by_cases hliteral : t.kind.isLiteral
      · simp only [hliteral, ↓reduceIte]
        rfl
      · by_cases hname : t.kind = .identifier
        · simp only [hname, ↓reduceIte]
          rfl
        · by_cases hparen : t.kind = .leftParen
          · have hinner := ih more.length (by simp [← hn]) .expression more rfl
            simp only [readLevel] at hinner
            simp only [hparen, ↓reduceIte]
            rw [hinner]
            refine Rereading.onOutcome_bind fun p _ => ?_
            rw [Rereading.onPhrase, expect_relabel h]
            exact Rereading.onOutcome_bind fun q _ => rfl
          · simp only [hliteral, hname, hparen, ↓reduceIte]
            exact congrArg Except.error (h.refuse .expression (t :: more))

theorem unary_relabels (h : ρ.Fits r r') {n : Nat} (ih : ∀ m < n, ∀ level, RelabelsAt ρ r r' level m)
    (hprimary : RelabelsAt ρ r r' .primary n) : RelabelsAt ρ r r' .unary n := by
  intro ts hn
  have hts := hprimary ts hn
  simp only [readLevel]
  rw [outcome_unary, outcome_unary]
  cases ts with
  | nil => exact hts
  | cons t more =>
      by_cases hsign : t.kind.isSign
      · have hoperand := ih more.length (by simp [← hn]) .unary more rfl
        simp only [readLevel] at hoperand
        simp only [List.map_cons, Token.relabel_kind, hsign, ↓reduceIte]
        rw [hoperand, h.place]
        exact Rereading.onOutcome_map fun operand => rfl
      · simp only [List.map_cons, Token.relabel_kind, hsign]
        exact hts

theorem chain_relabels (h : ρ.Fits r r') {l : Layer} {n : Nat}
    (ih : ∀ m < n, RelabelsAt ρ r r' (operandLevel l) m) (left : Expr) {ts : List Token}
    (hn : ts.length ≤ n) :
    outcome (r'.chain l (left.relabel ρ) (ts.map (Token.relabel ρ))) =
      ρ.onOutcome (ρ.onPhrase (Expr.relabel ρ)) (outcome (r.chain l left ts)) := by
  obtain ⟨k, hk⟩ : ∃ k, ts.length = k := ⟨_, rfl⟩
  induction k using Nat.strongRecOn generalizing left ts with
  | ind k ihk =>
      rw [outcome_chain, outcome_chain]
      cases ts with
      | nil => rfl
      | cons op more =>
          by_cases hop : l.admits op.kind
          · simp only [List.length_cons] at hn hk
            simp only [List.map_cons, Token.relabel_kind, hop, ↓reduceIte]
            rw [outcome_operand, outcome_operand, ih more.length (by omega) more rfl, h.place]
            refine Rereading.onOutcome_bind fun p hp => ?_
            rw [← outcome_operand] at hp
            have hlt := length_lt_of_outcome hp
            exact ihk p.2.length (by omega) (.binary (r.place op) op left p.1) (by omega) rfl
          · simp only [List.map_cons, Token.relabel_kind, hop]
            rfl

theorem layer_relabels (h : ρ.Fits r r') {l : Layer} {n : Nat}
    (ih : ∀ m < n, ∀ level, RelabelsAt ρ r r' level m) (hoperand : RelabelsAt ρ r r' (operandLevel l) n) :
    RelabelsAt ρ r r' (.layer l) n := by
  intro ts hn
  simp only [readLevel]
  rw [outcome_layer, outcome_layer, outcome_operand, outcome_operand, hoperand ts hn]
  refine Rereading.onOutcome_bind fun p hp => ?_
  rw [← outcome_operand] at hp
  have hlt := length_lt_of_outcome hp
  exact chain_relabels h (fun m hm => ih m hm _) p.1 (by omega)

theorem expression_relabels (h : ρ.Fits r r') {n : Nat} (ih : ∀ m < n, ∀ level, RelabelsAt ρ r r' level m)
    (hequality : RelabelsAt ρ r r' (.layer .equality) n) : RelabelsAt ρ r r' .expression n := by
  intro ts hn
  have hleft := hequality ts hn
  simp only [readLevel] at hleft ⊢
  rw [outcome_expression, outcome_expression, hleft]
  refine Rereading.onOutcome_bind fun p hp => ?_
  have hlt := length_lt_of_outcome hp
  obtain ⟨left, rest⟩ := p
  cases rest with
  | nil => rfl
  | cons sign more =>
      by_cases hsign : sign.kind = .equal
      · have hvalue := ih more.length (by simp only [List.length_cons] at hlt; omega) .expression more rfl
        simp only [readLevel] at hvalue
        simp only [Rereading.onPhrase, List.map_cons, Token.relabel_kind, hsign, ↓reduceIte]
        rw [hvalue]
        refine Rereading.onOutcome_bind fun q _ => ?_
        cases left with
        | reference context name => rfl
        | _ => exact congrArg Except.error (h.refuse .assignable (sign :: more))
      · simp only [Rereading.onPhrase, List.map_cons, Token.relabel_kind, hsign, ↓reduceIte]
        rfl

theorem readLevel_relabel (h : ρ.Fits r r') (level : Level) (ts : List Token) :
    r'.readLevel level (ts.map (Token.relabel ρ)) =
      ρ.onOutcome (ρ.onPhrase (Expr.relabel ρ)) (r.readLevel level ts) :=
  Level.induct (P := RelabelsAt ρ r r') (fun _ => primary_relabels h) (fun _ => unary_relabels h)
    (fun _ _ => layer_relabels h) (fun _ => expression_relabels h) level ts.length ts rfl

/-! ## Statements -/

theorem terminated_relabel (h : ρ.Fits r r') (wanted : Expectation) (ts : List Token) :
    r'.terminated wanted (ts.map (Token.relabel ρ)) =
      ρ.onOutcome (ρ.onPhrase (Expr.relabel ρ)) (r.terminated wanted ts) := by
  have hexpression := readLevel_relabel h .expression ts
  simp only [readLevel] at hexpression
  rw [terminated, terminated, hexpression]
  refine Rereading.onOutcome_bind fun p _ => ?_
  rw [Rereading.onPhrase, terminator_relabel h]
  exact Rereading.onOutcome_bind fun q _ => rfl

theorem initialised_relabel (h : ρ.Fits r r') (name : Token) (isMutable : Bool) (ts : List Token) :
    r'.initialised (name.relabel ρ) isMutable (ts.map (Token.relabel ρ)) =
      ρ.onOutcome (ρ.onPhrase (Stmt.relabel ρ)) (r.initialised name isMutable ts) := by
  rw [initialised, initialised, expect_relabel h, h.place]
  refine Rereading.onOutcome_bind fun p _ => ?_
  rw [Rereading.onPhrase, terminated_relabel h]
  exact Rereading.onOutcome_map fun init => by rw [Stmt.relabel]

theorem mutableMark_relabel (ρ : Relabelling) (ts : List Token) :
    (mutableMark (ts.map (Token.relabel ρ))).tree = (mutableMark ts).tree ∧
      (mutableMark (ts.map (Token.relabel ρ))).rest = (mutableMark ts).rest.map (Token.relabel ρ) := by
  cases ts with
  | nil => exact ⟨rfl, rfl⟩
  | cons t more =>
      change (mutableMark (t.relabel ρ :: more.map (Token.relabel ρ))).tree = _ ∧
        (mutableMark (t.relabel ρ :: more.map (Token.relabel ρ))).rest = _
      by_cases ht : t.kind = .keyword .mutKw
      · simp [mutableMark, ht]
      · simp [mutableMark, ht]

theorem declaration_relabel (h : ρ.Fits r r') (ts : List Token) :
    outcome (r'.declaration (ts.map (Token.relabel ρ))) =
      ρ.onOutcome (ρ.onPhrase (Stmt.relabel ρ)) (outcome (r.declaration ts)) := by
  obtain ⟨htree, hrest⟩ := mutableMark_relabel ρ ts
  rw [outcome_declaration_eq, outcome_declaration_eq, htree, hrest, expect_relabel h]
  exact Rereading.onOutcome_bind fun p _ => initialised_relabel h p.1 _ p.2

theorem statement_relabel (h : ρ.Fits r r') {t : Token} {more : List Token}
    (hbody : outcome (r'.body (more.map (Token.relabel ρ))) =
      ρ.onOutcome (ρ.onPhrase (Stmt.relabelAll ρ)) (outcome (r.body more))) :
    outcome (r'.statement (t.relabel ρ) (more.map (Token.relabel ρ))) =
      ρ.onOutcome (ρ.onPhrase (Stmt.relabel ρ)) (outcome (r.statement t more)) := by
  rw [outcome_statement, outcome_statement]
  simp only [Token.relabel_kind]
  by_cases hlet : t.kind = .keyword .letKw
  · simp only [hlet, ↓reduceIte]
    exact declaration_relabel h more
  · by_cases hprintln : t.kind = .keyword .printlnKw
    · simp only [hprintln, ↓reduceIte]
      rw [outcome_printing_eq, outcome_printing_eq, terminated_relabel h, h.place]
      exact Rereading.onOutcome_map fun value => by rw [Stmt.relabel]
    · by_cases hbrace : t.kind = .leftBrace
      · simp only [hbrace, ↓reduceIte]
        rw [hbody, h.place]
        exact Rereading.onOutcome_map fun body => by rw [Stmt.relabel]
      · simp only [hlet, hprintln, hbrace, ↓reduceIte]
        rw [outcome_evaluation_eq, outcome_evaluation_eq, ← List.map_cons, terminated_relabel h, h.place]
        exact Rereading.onOutcome_map fun value => by rw [Stmt.relabel]

theorem body_relabel (h : ρ.Fits r r') (ts : List Token) :
    outcome (r'.body (ts.map (Token.relabel ρ))) =
      ρ.onOutcome (ρ.onPhrase (Stmt.relabelAll ρ)) (outcome (r.body ts)) := by
  obtain ⟨n, hn⟩ : ∃ n, ts.length = n := ⟨_, rfl⟩
  induction n using Nat.strongRecOn generalizing ts with
  | ind n ih =>
      rw [outcome_body, outcome_body]
      cases ts with
      | nil => exact congrArg Except.error (h.refuse .closingBrace [])
      | cons t more =>
          simp only [List.length_cons] at hn
          by_cases hbrace : t.kind = .rightBrace
          · simp only [List.map_cons, Token.relabel_kind, hbrace, ↓reduceIte]
            rfl
          · simp only [List.map_cons, Token.relabel_kind, hbrace, ↓reduceIte]
            rw [statement_relabel h (ih more.length (by omega) more rfl)]
            refine Rereading.onOutcome_bind fun p hp => ?_
            have hlt := length_lt_of_outcome hp
            rw [Rereading.onPhrase, ih p.2.length (by omega) p.2 rfl]
            exact Rereading.onOutcome_map fun others => by rw [Stmt.relabelAll]

/-- To read tokens with other lines is to give other places to what has been read. -/
theorem program_relabel (h : ρ.Fits r r') (ts : List Token) :
    r'.program (ts.map (Token.relabel ρ)) = ρ.onOutcome (Stmt.relabelAll ρ) (r.program ts) := by
  obtain ⟨n, hn⟩ : ∃ n, ts.length = n := ⟨_, rfl⟩
  induction n using Nat.strongRecOn generalizing ts with
  | ind n ih =>
      rw [program_eq, program_eq, h.mode]
      cases ts with
      | nil => rfl
      | cons t more =>
          simp only [List.length_cons] at hn
          simp only [List.map_cons]
          rw [statement_relabel h (body_relabel h more)]
          refine Rereading.onOutcome_bind fun p hp => ?_
          have hlt := length_lt_of_outcome hp
          split
          · rfl
          · rw [Rereading.onPhrase, ih p.2.length (by omega) p.2 rfl]
            exact Rereading.onOutcome_bind fun others _ => rfl

end Reading

/-! ## No places -/

/-- All lines are the same, and so are all places. -/
def Relabelling.erasing : Relabelling := ⟨fun _ => 0, fun _ => .atLine [] 0⟩

def Rereading.erasing : Rereading := ⟨.erasing, fun d => ⟨.atLine [] 0, d.fault⟩⟩

theorem Rereading.erasing_fits (r : Reading) : erasing.Fits r ⟨[], r.mode, 0⟩ := by
  refine ⟨rfl, fun t => rfl, fun wanted ts => ?_⟩
  cases ts <;> rfl

/-- A token apart from its line. -/
def Token.unplaced (t : Token) : Token := t.relabel .erasing

/-- A program apart from its places and the lines of its tokens. -/
def Stmt.unplacedAll (program : List Stmt) : List Stmt := Stmt.relabelAll .erasing program

/-- What tokens spell, apart from its places, is decided by the mode and the tokens apart from their lines. -/
theorem parseTokens_unplaced (source : Text) (mode : Mode) (tokens : List Token) :
    Rereading.erasing.onOutcome Stmt.unplacedAll (parseTokens source mode tokens) =
      (Reading.mk [] mode 0).program ((tokens.map Token.unplaced).takeWhile (·.kind ≠ .endOfInput)) := by
  have htokens : (tokens.map Token.unplaced).takeWhile (·.kind ≠ .endOfInput) =
      (tokens.takeWhile (·.kind ≠ .endOfInput)).map Token.unplaced := List.takeWhile_map ..
  rw [htokens]
  exact (Reading.program_relabel (Rereading.erasing_fits _) _).symm

/-! ## Another end -/

/-- The diagnostic with its place at the end of a source, if it says that the source ended early. -/
def Diagnostic.endingAt (source : Text) (line : Int) (d : Diagnostic) : Diagnostic :=
  match d.fault with
  | .endedEarly wanted => ⟨.atLine source line, .endedEarly wanted⟩
  | _ => d

/-- Everything stays where it is. -/
def Relabelling.same : Relabelling := ⟨id, id⟩

/-- The source ends on another line, and all its tokens stay where they are. -/
def Rereading.ending (source : Text) (line : Int) : Rereading := ⟨.same, .endingAt source line⟩

theorem Rereading.ending_fits (source : Text) (mode : Mode) (line line' : Int) :
    (ending source line').Fits ⟨source, mode, line⟩ ⟨source, mode, line'⟩ := by
  refine ⟨rfl, fun t => rfl, fun wanted ts => ?_⟩
  cases ts <;> rfl

theorem Token.map_relabel_same (ts : List Token) : ts.map (Token.relabel .same) = ts := List.map_id ts

theorem Expr.relabel_same (e : Expr) : e.relabel .same = e := by
  induction e with
  | binary c op left right ihl ihr => rw [Expr.relabel, ihl, ihr]; rfl
  | group c inner ih => rw [Expr.relabel, ih]; rfl
  | unary c op operand ih => rw [Expr.relabel, ih]; rfl
  | assign c name value ih => rw [Expr.relabel, ih]; rfl
  | literal | reference | absent | foreign => rfl

mutual

theorem Stmt.relabel_same (stmt : Stmt) : stmt.relabel .same = stmt := by
  match stmt with
  | .expr c value => rw [Stmt.relabel, Expr.relabel_same]; rfl
  | .println c value => rw [Stmt.relabel, Expr.relabel_same]; rfl
  | .declare c name isMutable init => rw [Stmt.relabel, Expr.relabel_same]; rfl
  | .block c body => rw [Stmt.relabel, Stmt.relabelAll_same]; rfl
  | .absent => rw [Stmt.relabel]
  | .foreign c typeName => rw [Stmt.relabel]; rfl

theorem Stmt.relabelAll_same (program : List Stmt) : Stmt.relabelAll .same program = program := by
  match program with
  | [] => rw [Stmt.relabelAll]
  | stmt :: rest => rw [Stmt.relabelAll, Stmt.relabel_same, Stmt.relabelAll_same]

end

/-- The line on which a source ends is seen in the diagnostic that it ended early, and nowhere else. -/
theorem Reading.program_ending (source : Text) (mode : Mode) (line line' : Int) (ts : List Token) :
    Reading.program ⟨source, mode, line'⟩ ts =
      (Reading.program ⟨source, mode, line⟩ ts).mapError (Diagnostic.endingAt source line') := by
  have hprogram := Reading.program_relabel (Rereading.ending_fits source mode line line') ts
  rw [show ts.map (Token.relabel (Rereading.ending source line')) = ts from Token.map_relabel_same ts] at hprogram
  rw [hprogram]
  cases Reading.program ⟨source, mode, line⟩ ts with
  | error d => rfl
  | ok program => exact congrArg Except.ok (Stmt.relabelAll_same program)

end LetScript
