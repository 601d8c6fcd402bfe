import LetScript.Proofs.Syntax.Finality
import LetScript.Proofs.Syntax.Walk

/-!
# Safety of the cursor

Reading in place finds the same trees and refuses the same tokens as the readers do, on any tokens whatsoever. So
it comes to an end, and on the way the cursor never looks past an end of the tokens, goes back or passes the
first end of input.
-/

namespace LetScript

open Grammar Phrase Walk

namespace Marked

variable {m : Marked} {ts : List Token}

/-! ## Expressions -/

/-- The walk that reads the expressions of a level. -/
def walkLevel (m : Marked) : Level → Nat → Walk Expr
  | .expression, n => m.track.expression n
  | .layer l, n => m.track.layer n l
  | .unary, n => m.track.unary n
  | .primary, n => m.track.primary n

theorem operand_runs {l : Layer} {x : Except Diagnostic (Expr × List Token)}
    (h : m.Runs (m.walkLevel (operandLevel l)) ts x) : m.Runs (fun n => m.track.operand n l) ts x := by
  refine .of_succ ?_
  cases l <;> exact h

/-- At a number of tokens, the walk of a level does what its reader does. -/
def RunsLevel (m : Marked) (level : Level) (n : Nat) : Prop :=
  ∀ ts, ts.length = n → m.Runs (m.walkLevel level) ts (m.reading.readLevel level ts)

theorem length_lt_of_readLevel {r : Reading} {level : Level} {e : Expr} {rest : List Token}
    (h : r.readLevel level ts = .ok (e, rest)) : rest.length < ts.length := by
  cases level with
  | primary =>
      cases ts with
      | nil => cases h
      | cons t more => exact length_lt_of_outcome h
  | _ => exact length_lt_of_outcome h

theorem primary_runs {n : Nat} (ih : ∀ j < n, ∀ level, m.RunsLevel level j) : m.RunsLevel .primary n := by
  intro ts hn
  refine .of_succ ?_
  simp only [walkLevel, Track.primary]
  refine Runs.counted (.of_suffix fun hsuffix => ?_) fun e rest => length_lt_of_readLevel
  refine runs_peek.bind_ok ?_
  have hrefuse := refuse_facing hsuffix .expression
  cases ts with
  | nil =>
      simp only [facing_nil, m.stop_kind, Token.Kind.isLiteral, Reading.readLevel] at hrefuse ⊢
      rw [← hrefuse]
      exact runs_throw _
  | cons t more =>
      have hmore : more.length < n := by
        rw [← hn]
        simp
      rw [Reading.readLevel, Reading.outcome_primary, facing_cons]
      by_cases hliteral : t.kind.isLiteral
      · simp only [hliteral, ↓reduceIte]
        exact runs_advance.bind_ok (runs_pure _)
      by_cases hname : t.kind = .identifier
      · simp only [hname, ↓reduceIte]
        exact runs_advance.bind_ok (runs_pure _)
      by_cases hparen : t.kind = .leftParen
      · simp only [hparen, ↓reduceIte]
        refine runs_advance.bind_ok ((ih _ hmore .expression more rfl).bind fun inner rest _ => ?_)
        exact (runs_expect .rightParen .closingParen).bind fun _ _ _ => runs_pure _
      · simp only [hliteral, hname, hparen, ↓reduceIte]
        rw [← hrefuse]
        exact runs_throw _

theorem unary_runs {n : Nat} (ih : ∀ j < n, ∀ level, m.RunsLevel level j) (hprimary : m.RunsLevel .primary n) :
    m.RunsLevel .unary n := by
  intro ts hn
  refine .of_succ ?_
  simp only [walkLevel, Track.unary]
  refine Runs.counted (.of_suffix fun hsuffix => ?_) fun e rest => length_lt_of_readLevel
  rw [Reading.readLevel, Reading.outcome_unary]
  cases ts with
  | nil => exact (runs_accept_not (by simp)).bind_false (hprimary [] hn)
  | cons t more =>
      have hmore : more.length < n := by
        rw [← hn]
        simp
      by_cases hsign : t.kind.isSign
      · simp only [hsign, ↓reduceIte]
        refine (runs_accept (Token.Kind.isSign_iff.1 hsign)).bind_true ?_
        refine (runs_previous hsuffix).bind_ok ((ih _ hmore .unary more rfl).bind fun operand rest _ => ?_)
        exact runs_pure _
      · simp only [hsign]
        refine (runs_accept_not ?_).bind_false (hprimary (t :: more) hn)
        simpa [← Token.Kind.isSign_iff] using hsign

/-- The operators of a layer are passed one after the other. -/
theorem chain_runs {n : Nat} (ih : ∀ j < n, ∀ level, m.RunsLevel level j) (l : Layer) (left : Expr)
    (hn : ts.length < n) :
    m.Runs (fun rounds => m.track.chain rounds l left) ts (outcome (m.reading.chain l left ts)) := by
  obtain ⟨j, hlength⟩ : ∃ j, ts.length = j := ⟨_, rfl⟩
  induction j using Nat.strongRecOn generalizing ts left with
  | ind j ihchain =>
      refine .of_succ (.of_suffix fun hsuffix => ?_)
      simp only [Track.chain]
      rw [Reading.outcome_chain]
      cases ts with
      | nil => exact (runs_accept_not (by simp)).bind_false (runs_pure _)
      | cons op more =>
          rw [List.length_cons] at hn hlength
          by_cases hop : l.admits op.kind
          · simp only [hop, ↓reduceIte]
            refine (runs_accept (Layer.admits_iff.1 hop)).bind_true ((runs_previous hsuffix).bind_ok ?_)
            rw [Reading.outcome_operand]
            refine (operand_runs (ih more.length (by omega) _ more rfl)).bind fun right rest hright => ?_
            have hrest := length_lt_of_readLevel hright
            exact ihchain rest.length (by omega) _ (by omega) rfl
          · simp only [hop]
            refine (runs_accept_not ?_).bind_false (runs_pure _)
            simpa [← Layer.admits_iff] using hop

theorem layer_runs {n : Nat} {l : Layer} (ih : ∀ j < n, ∀ level, m.RunsLevel level j)
    (hoperand : m.RunsLevel (operandLevel l) n) : m.RunsLevel (.layer l) n := by
  intro ts hn
  refine .of_succ ?_
  simp only [walkLevel, Track.layer]
  refine Runs.counted ?_ fun e rest => length_lt_of_readLevel
  rw [Reading.readLevel, Reading.outcome_layer, Reading.outcome_operand]
  refine (operand_runs (hoperand ts hn)).bind fun left rest hleft => ?_
  exact chain_runs ih l left (hn ▸ length_lt_of_readLevel hleft)

theorem expression_runs {n : Nat} (ih : ∀ j < n, ∀ level, m.RunsLevel level j)
    (hequality : m.RunsLevel (.layer .equality) n) : m.RunsLevel .expression n := by
  intro ts hn
  refine .of_succ ?_
  simp only [walkLevel, Track.expression]
  refine Runs.counted ?_ fun e rest => length_lt_of_readLevel
  rw [Reading.readLevel, Reading.outcome_expression]
  refine (hequality ts hn).bind fun left rest hleft => .of_suffix fun hsuffix => ?_
  cases rest with
  | nil => exact (runs_accept_not (by simp)).bind_false (runs_pure _)
  | cons sign more =>
      by_cases hsign : sign.kind = .equal
      · simp only [hsign, ↓reduceIte]
        have hmore : more.length < n := by
          have hrest := length_lt_of_readLevel hleft
          rw [List.length_cons] at hrest
          omega
        refine (runs_accept (by simp [hsign])).bind_true ((runs_previous hsuffix).bind_ok ?_)
        refine (ih _ hmore .expression more rfl).bind fun value rest _ => ?_
        -- the left side is looked at last, and only a name can be assigned to
        cases left with
        | reference context name => exact runs_pure _
        | _ =>
            have hrefuse := refuse_facing hsuffix .assignable
            rw [facing_cons] at hrefuse
            rw [← hrefuse]
            exact runs_throw _
      · simp only [hsign, ↓reduceIte]
        exact (runs_accept_not (by simp [hsign])).bind_false (runs_pure _)

theorem level_runs (level : Level) (ts : List Token) :
    m.Runs (m.walkLevel level) ts (m.reading.readLevel level ts) :=
  Level.induct (fun _ ih => primary_runs ih) (fun _ ih => unary_runs ih) (fun _ _ ih => layer_runs ih)
    (fun _ ih => expression_runs ih) level ts.length ts rfl

theorem runs_expression (ts : List Token) :
    m.Runs m.track.expression ts (outcome (m.reading.expression ts)) :=
  level_runs .expression ts

/-! ## Statements -/

theorem runs_mutableMark :
    m.Runs (fun _ => m.track.accept [.keyword .mutKw]) ts
      (.ok ((Reading.mutableMark ts).tree, (Reading.mutableMark ts).rest)) := by
  cases ts with
  | nil => exact runs_accept_not (by simp)
  | cons t more =>
      by_cases hkind : t.kind = .keyword .mutKw
      · simp only [Reading.mutableMark, hkind, ↓reduceIte]
        exact runs_accept (by simp [hkind])
      · simp only [Reading.mutableMark, hkind, ↓reduceIte]
        exact runs_accept_not (by simp [hkind])

theorem declaration_runs : m.Runs m.track.declaration ts (outcome (m.reading.declaration ts)) := by
  unfold Track.declaration
  rw [Reading.outcome_declaration]
  refine runs_mutableMark.bind_ok ((runs_expect _ _).bind fun name rest _ => ?_)
  refine (runs_expect _ _).bind fun _ rest _ => (runs_expression rest).bind fun init rest _ => ?_
  exact (runs_terminator _).bind fun _ _ _ => runs_pure _

theorem printing_runs {t : Token} (h : t :: ts <:+ m.before) :
    m.Runs m.track.printing ts (outcome (m.reading.printing t ts)) := by
  unfold Track.printing
  rw [Reading.outcome_printing]
  refine (runs_previous h).bind_ok ((runs_expression ts).bind fun value rest _ => ?_)
  exact (runs_terminator _).bind fun _ _ _ => runs_pure _

theorem evaluation_runs {t : Token} :
    m.Runs m.track.evaluation (t :: ts) (outcome (m.reading.evaluation t ts)) := by
  unfold Track.evaluation
  rw [Reading.outcome_evaluation]
  refine runs_peek.bind_ok ((runs_expression (t :: ts)).bind fun value rest _ => ?_)
  exact (runs_terminator _).bind fun _ _ _ => runs_pure _

theorem statement_runs {n : Nat}
    (ih : ∀ more : List Token, more.length < n → m.Runs m.track.body more (outcome (m.reading.body more)))
    {t : Token} (hn : ts.length < n) : m.Runs m.track.statement (t :: ts) (outcome (m.reading.statement t ts)) := by
  refine .of_succ ?_
  simp only [Track.statement]
  refine Runs.counted (.of_suffix fun hsuffix => ?_) fun _ _ => length_lt_of_outcome
  rw [Reading.outcome_statement]
  by_cases hlet : t.kind = .keyword .letKw
  · simp only [hlet, ↓reduceIte]
    exact (runs_accept (by simp [hlet])).bind_true declaration_runs
  refine (runs_accept_not (by simp [hlet])).bind_false ?_
  by_cases hprint : t.kind = .keyword .printlnKw
  · simp only [hprint, ↓reduceIte]
    exact (runs_accept (by simp [hprint])).bind_true (printing_runs hsuffix)
  refine (runs_accept_not (by simp [hprint])).bind_false ?_
  by_cases hbrace : t.kind = .leftBrace
  · simp only [hbrace, ↓reduceIte]
    refine (runs_accept (by simp [hbrace])).bind_true ((runs_previous hsuffix).bind_ok ?_)
    exact (ih ts hn).bind fun _ _ _ => runs_pure _
  · simp only [hlet, hprint, hbrace, ↓reduceIte]
    exact (runs_accept_not (by simp [hbrace])).bind_false evaluation_runs

/-- The statements of a block, of which each takes at least a token, are read one after the other. -/
theorem body_runs (ts : List Token) : m.Runs m.track.body ts (outcome (m.reading.body ts)) := by
  obtain ⟨n, hn⟩ : ∃ n, ts.length = n := ⟨_, rfl⟩
  induction n using Nat.strongRecOn generalizing ts with
  | ind n ih =>
      have hbody (more : List Token) (hmore : more.length < n) :
          m.Runs m.track.body more (outcome (m.reading.body more)) := ih more.length hmore more rfl
      have hclose : m.Runs (fun _ => m.track.closing) ts
          ((outcome (m.reading.expect .rightBrace .closingBrace ts)).bind fun p => .ok ([], p.2)) :=
        (runs_expect _ _).bind fun _ _ _ => runs_pure _
      rw [Reading.outcome_expect] at hclose
      refine .of_succ ?_
      simp only [Track.body]
      rw [Reading.outcome_body]
      cases ts with
      | nil => exact (runs_check_not (by simp)).bind_false (runs_atEnd.bind_true hclose)
      | cons t more =>
          by_cases hbrace : t.kind = .rightBrace
          · simp only [hbrace, ↓reduceIte] at hclose ⊢
            exact (runs_check hbrace).bind_true hclose
          · simp only [hbrace, ↓reduceIte]
            rw [List.length_cons] at hn
            refine (runs_check_not (by simpa using hbrace)).bind_false (runs_atEnd.bind_false ?_)
            refine (statement_runs hbody (by omega)).bind fun first rest hfirst => ?_
            have hrest := length_lt_of_outcome hfirst
            exact (hbody rest (by omega)).bind fun _ _ _ => runs_pure _

theorem runs_statement (t : Token) (more : List Token) :
    m.Runs m.track.statement (t :: more) (outcome (m.reading.statement t more)) :=
  statement_runs (fun more _ => body_runs more) (Nat.lt_succ_self more.length)

/-- The statements of a source are read one after the other; at a prompt, some tokens may be left. -/
theorem program_runs (ts : List Token) :
    ∃ left, m.Runs m.track.program ts ((m.reading.program ts).map fun statements => (statements, left)) := by
  obtain ⟨n, hn⟩ : ∃ n, ts.length = n := ⟨_, rfl⟩
  induction n using Nat.strongRecOn generalizing ts with
  | ind n ih =>
      rw [Reading.program_eq]
      cases ts with
      | nil => exact ⟨[], .of_succ (runs_atEnd.bind_true (runs_pure []))⟩
      | cons t more =>
          have hstatement := @runs_statement m t more
          dsimp only
          cases hfirst : outcome (m.reading.statement t more) with
          | error d =>
              rw [hfirst] at hstatement
              refine ⟨[], .of_succ (runs_atEnd.bind_false ?_)⟩
              exact hstatement.bind (y := fun _ => .error d) fun a rest h => by cases h
          | ok p =>
              obtain ⟨first, rest⟩ := p
              rw [hfirst] at hstatement
              have hrest := length_lt_of_outcome hfirst
              rw [List.length_cons] at hn
              obtain ⟨left, hothers⟩ := ih rest.length (by omega) rest rfl
              by_cases hmode : m.mode = .prompt
              · refine ⟨rest, .of_succ (runs_atEnd.bind_false (hstatement.bind_ok ?_))⟩
                simp only [track, reading, hmode, ↓reduceIte]
                exact runs_pure [first]
              · refine ⟨left, .of_succ (runs_atEnd.bind_false (hstatement.bind_ok ?_))⟩
                simp only [show m.track.mode ≠ .prompt from hmode, show m.reading.mode ≠ .prompt from hmode,
                  ↓reduceIte, bind_ok]
                have hall := hothers.bind (y := fun p => .ok (first :: p.1, p.2)) fun others rest _ =>
                  runs_pure (first :: others)
                cases hprogram : m.reading.program rest <;> rw [hprogram] at hall <;> exact hall

end Marked

/-! ## Tokens of any kind -/

theorem Token.complete_cons (t u : Token) (rest : List Token) :
    Token.complete (t :: u :: rest) = t :: Token.complete (u :: rest) := by
  simp only [Token.complete, List.getLast?_cons_cons, List.getLast?_eq_some_getLast (List.cons_ne_nil u rest)]
  split <;> rfl

/-- Any tokens have a first end of input once they are complete, before which nothing is added. -/
theorem exists_marked (source : Text) (mode : Mode) (tokens : List Token) :
    ∃ m : Marked, m.track = ⟨source, mode, Token.complete tokens⟩ ∧
      m.before = tokens.takeWhile (·.kind ≠ .endOfInput) ∧ m.stop.line = Token.lastLine tokens := by
  induction tokens with
  | nil => exact ⟨⟨source, mode, [], .endOfInput 1, [], by simp, rfl⟩, rfl, rfl, rfl⟩
  | cons t rest ih =>
      by_cases ht : t.kind = .endOfInput
      · obtain ⟨after, hafter⟩ : ∃ after, Token.complete (t :: rest) = t :: after := by
          cases rest with
          | nil => exact ⟨[], by simp [Token.complete, ht]⟩
          | cons u rest => exact ⟨_, Token.complete_cons t u rest⟩
        refine ⟨⟨source, mode, [], t, after, by simp, ht⟩, ?_, by simp [ht], ?_⟩
        · rw [hafter]
          rfl
        · have hline : Token.lastLine ([] ++ t :: rest) = t.line := Token.lastLine_append (by simp) ht rest
          exact hline.symm
      · cases rest with
        | nil =>
            refine ⟨⟨source, mode, [t], .endOfInput t.line, [], by simpa using ht, rfl⟩, ?_, by simp [ht], rfl⟩
            simp [Marked.track, Token.complete, ht]
        | cons u rest =>
            obtain ⟨m, htrack, hbefore, hline⟩ := ih
            have hne : ∀ t' ∈ t :: m.before, t'.kind ≠ .endOfInput := List.forall_mem_cons.2 ⟨ht, m.before_ne⟩
            refine ⟨{ m with before := t :: m.before, before_ne := hne }, ?_, ?_, ?_⟩
            · simp only [Marked.track, Track.mk.injEq] at htrack ⊢
              rw [Token.complete_cons, ← htrack.2.2]
              exact ⟨htrack.1, htrack.2.1, rfl⟩
            · rw [List.takeWhile_cons_of_pos (by simpa using ht), ← hbefore]
            · rw [Token.lastLine, if_neg ht]
              · exact hline
              · simp

/-- A cursor is safe on any tokens. It comes to its end, with what the readers find, in any number of rounds from
some number on. All that it looks at on the way lies among the tokens, of which those behind the first end of
input are never looked at; it never goes back, and passes at least one token for each statement and each
expression that has been read. So what stands behind the first end of input makes no difference. -/
theorem cursor_stays_on_tokens (source : Text) (mode : Mode) (tokens : List Token) :
    (∃ c stop least,
      (∀ rounds ≥ least, Cursor.parse rounds source mode tokens = some (parseTokens source mode tokens, c)) ∧
      stop = (tokens.takeWhile (·.kind ≠ .endOfInput)).length ∧
      (Token.complete tokens)[stop]?.map Token.kind = some .endOfInput ∧ c.Orderly stop) ∧
    ∀ before stop after, tokens = before ++ [stop] ++ after → (∀ t ∈ before, t.kind ≠ .endOfInput) →
      stop.kind = .endOfInput → parseTokens source mode tokens = parseTokens source mode (before ++ [stop]) := by
  constructor
  · obtain ⟨m, htrack, hbefore, hline⟩ := exists_marked (sourceOrDefault source) mode tokens
    have hfaces : m.Faces ⟨0, []⟩ m.before := ⟨[], rfl, rfl⟩
    have horderly : (Cursor.mk 0 []).Orderly m.before.length := ⟨Nat.zero_le _, by simp, by simp⟩
    obtain ⟨left, hprogram⟩ := @Marked.program_runs m m.before
    obtain ⟨c, least, hstart, hc, -⟩ := hprogram ⟨0, []⟩ hfaces horderly
    have hparse : m.reading.program m.before = parseTokens source mode tokens := by
      simp only [Marked.track, Track.mk.injEq] at htrack
      simp only [Marked.reading, parseTokens, hline, htrack.1, htrack.2.1, hbefore]
    have hfound : ((parseTokens source mode tokens).map fun statements => (statements, left)).map Prod.fst =
        parseTokens source mode tokens := by
      cases parseTokens source mode tokens <;> rfl
    rw [hparse, hfound] at hstart
    refine ⟨c, m.before.length, least, fun rounds hrounds => ?_, by rw [hbefore], ?_, hc⟩
    · rw [Cursor.parse, ← htrack, hstart rounds hrounds]
    · have hstop : m.track.tokens[m.before.length]? = some m.stop := by
        rw [Marked.track, List.getElem?_append_right (Nat.le_refl _), Nat.sub_self, List.getElem?_cons_zero]
      rw [htrack] at hstop
      rw [hstop, Option.map_some, m.stop_kind]
  · rintro before stop after rfl hbefore hstop
    simp only [parseTokens, List.append_assoc, List.singleton_append, Token.lastLine_append hbefore hstop,
      takeWhile_tokens hbefore, List.takeWhile_cons, hstop, ne_eq, not_true_eq_false, decide_false,
      Bool.false_eq_true, ↓reduceIte]

-- with no tokens at all, the added end of input is looked at once
example : Cursor.parse 1 [] .file [] = some (.ok [], ⟨0, [.peek 0]⟩) := rfl

-- behind the end of input after an empty block, an operator is not looked at and makes no difference
example :
    let token (kind : Token.Kind) : Token := ⟨kind, [], .none, 1⟩
    let block := [token .leftBrace, token .rightBrace, .endOfInput 1]
    (Cursor.parse 4 [] .file (block ++ [token .plus])).map Prod.snd =
        some ⟨2, [.peek 2, .parsed 0 2, .previous 1] ++ List.replicate 5 (.peek 1) ++
          [.previous 0, .previous 0] ++ List.replicate 8 (.peek 0)⟩ ∧
      parseTokens [] .file (block ++ [token .plus]) = parseTokens [] .file block := ⟨rfl, rfl⟩

end LetScript
