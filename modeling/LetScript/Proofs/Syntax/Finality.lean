import LetScript.Proofs.Lexical.Seam
import LetScript.Proofs.Syntax.Extension

/-!
# Failures that are final

Statements and whole sources before more tokens: what has been read stays, and so does what has failed for
another reason than the want of tokens. Together with what the scanner makes of a source that goes on after
a line feed: a source that cannot be read, and not for want of more, is the beginning of no source that
can.
-/

namespace LetScript

open Grammar Phrase

namespace Reading

variable {r r' : Reading}

/-! ## Statements -/

/-- The tokens neither go on an expression nor end a statement. -/
def Closing (us : List Token) : Prop :=
  Ends .expression us ∧ ∀ t ∈ us.head?, t.kind ≠ .semicolon

/-- How a reader fares with more tokens, given how it fared without them. -/
structure Extends {α : Type} (us : List Token) (x y : Except Diagnostic (α × List Token)) : Prop where
  /-- What was read stays if it ended before the tokens did, or if it cannot go on. -/
  ok : ∀ tree rest, x = .ok (tree, rest) → rest ≠ [] ∨ Closing us → y = .ok (tree, rest ++ us)
  error : ∀ d, x = .error d → d.fault.incomplete = false → Fails d y

/-- What comes of reading when nothing is left to read. -/
def Exhausted {α : Type} (x : Except Diagnostic (α × List Token)) : Prop :=
  (∃ tree, x = .ok (tree, [])) ∨ ∃ d, x = .error d ∧ d.fault.incomplete

namespace Extends

variable {α β : Type} {us : List Token}

theorem read (tree : α) (rest : List Token) : Extends us (.ok (tree, rest)) (.ok (tree, rest ++ us)) := by
  refine ⟨fun tree' rest' h _ => ?_, fun d h => ?_⟩
  · cases h; rfl
  · cases h

theorem wanting {x y : Except Diagnostic (α × List Token)} {d : Diagnostic} (h : x = .error d)
    (hd : d.fault.incomplete) : Extends us x y := by
  subst h
  refine ⟨fun tree rest h _ => ?_, fun d' h hd' => ?_⟩
  · cases h
  · cases h
    rw [hd] at hd'
    cases hd'

theorem refused {x y : Except Diagnostic (α × List Token)} {d : Diagnostic} (hx : x = .error d)
    (hy : y = .error d) : Extends us x y := by
  subst hx
  refine ⟨fun tree rest h _ => ?_, fun d' h _ => ?_⟩
  · cases h
  · cases h
    exact .same hy

/-- Two readings in a row. The second one sees that there are more tokens, unless the first one has ended
with the old ones. -/
theorem bind {x y : Except Diagnostic (α × List Token)}
    {f f' : α × List Token → Except Diagnostic (β × List Token)} (h : Extends us x y)
    (hf : ∀ tree rest, x = .ok (tree, rest) → rest ≠ [] ∨ Closing us →
      Extends us (f (tree, rest)) (f' (tree, rest ++ us)))
    (hnil : ∀ tree, Exhausted (f (tree, []))) : Extends us (x.bind f) (y.bind f') := by
  refine ⟨fun tree' rest' hx hrest' => ?_, fun d hx hd => ?_⟩
  · obtain ⟨⟨tree, rest⟩, hx, hfx⟩ := bind_eq_ok_iff.1 hx
    have hrest : rest ≠ [] ∨ Closing us := by
      refine hrest'.imp_left ?_
      rintro hne rfl
      rcases hnil tree with ⟨tree'', hok⟩ | ⟨d, herror, -⟩
      · rw [hfx] at hok
        cases hok
        exact hne rfl
      · rw [hfx] at herror
        cases herror
    rw [h.ok _ _ hx hrest, bind_ok]
    exact (hf _ _ hx hrest).ok _ _ hfx hrest'
  · rcases bind_eq_error_iff.1 hx with hx | ⟨⟨tree, rest⟩, hx, hfx⟩
    · exact (h.error _ hx hd).bind _
    · have hne : rest ≠ [] := by
        rintro rfl
        rcases hnil tree with ⟨tree', hok⟩ | ⟨d', herror, hd'⟩
        · rw [hfx] at hok
          cases hok
        · rw [hfx] at herror
          cases herror
          rw [hd] at hd'
          cases hd'
      rw [h.ok _ _ hx (Or.inl hne), bind_ok]
      exact (hf _ _ hx (Or.inl hne)).error _ hfx hd

/-- What has been read is only wrapped up. -/
theorem map {x y : Except Diagnostic (α × List Token)} (h : Extends us x y) (g : α → β) :
    Extends us (x.bind fun p => .ok (g p.1, p.2)) (y.bind fun p => .ok (g p.1, p.2)) :=
  h.bind (fun tree rest _ _ => read (g tree) rest) fun tree => Or.inl ⟨g tree, rfl⟩

end Extends

theorem expect_extends (hr : r.Agrees r') (kind : Token.Kind) (wanted : Expectation) (ts us : List Token) :
    Extends us (outcome (r.expect kind wanted ts)) (outcome (r'.expect kind wanted (ts ++ us))) := by
  rw [outcome_expect, outcome_expect]
  cases ts with
  | nil => exact .wanting rfl rfl
  | cons t more =>
      simp only [List.cons_append]
      split
      · exact .read t more
      · exact .refused rfl (by rw [hr.refuse_cons])

theorem expression_extends (hr : r.Agrees r') (ts us : List Token) :
    Extends us (outcome (r.expression ts)) (outcome (r'.expression (ts ++ us))) := by
  refine ⟨fun e rest h hrest => ?_, fun d h hd => readLevel_final hr .expression h hd us⟩
  refine readLevel_append hr.source .expression h ?_
  cases rest with
  | nil =>
      rcases hrest with hne | hclosing
      · exact absurd rfl hne
      · exact hclosing.1
  | cons t more => exact (readLevel_ends .expression h).append (by simp) us

theorem expression_exhausted (r : Reading) :
    ∃ d, outcome (r.expression []) = .error d ∧ d.fault.incomplete := by
  have hunary : outcome (r.unary []) = .error (r.refuse .expression []) := by rw [outcome_unary]
  have hlayer : ∀ l, r.readLevel (operandLevel l) [] = .error (r.refuse .expression []) →
      outcome (r.layer l []) = .error (r.refuse .expression []) := by
    intro l h
    rw [outcome_layer, outcome_operand, h, bind_error]
  refine ⟨r.refuse .expression [], ?_, rfl⟩
  rw [outcome_expression,
    hlayer .equality (hlayer .comparison (hlayer .sum (hlayer .product hunary))), bind_error]

theorem terminator_extends (hr : r.Agrees r') (wanted : Expectation) (ts us : List Token) :
    Extends us (outcome (r.terminator wanted ts)) (outcome (r'.terminator wanted (ts ++ us))) := by
  rw [outcome_terminator, outcome_terminator, hr.mode]
  cases ts with
  | nil =>
      dsimp only
      split
      · -- at a prompt the statement has ended, and the new tokens may hold its terminator
        refine ⟨fun tree rest h hrest => ?_, fun d h => by cases h⟩
        cases h
        obtain ⟨-, hsemicolon⟩ := hrest.resolve_left fun hne => hne rfl
        cases us with
        | nil => rfl
        | cons u us => simp [hsemicolon u rfl]
      · exact .wanting rfl rfl
  | cons t more =>
      simp only [List.cons_append]
      split
      · exact .read () more
      · split
        · exact .read () (t :: more)
        · exact .refused rfl (by rw [hr.refuse_cons])

theorem terminator_exhausted (r : Reading) (wanted : Expectation) :
    Exhausted (outcome (r.terminator wanted [])) := by
  rw [outcome_terminator]
  dsimp only
  split
  · exact Or.inl ⟨(), rfl⟩
  · exact Or.inr ⟨_, rfl, rfl⟩

/-- An expression and the end of its statement. -/
def terminated (r : Reading) (wanted : Expectation) (ts : List Token) :
    Except Diagnostic (Expr × List Token) :=
  (outcome (r.expression ts)).bind fun p =>
    (outcome (r.terminator wanted p.2)).bind fun q => .ok (p.1, q.2)

theorem terminated_extends (hr : r.Agrees r') (wanted : Expectation) (ts us : List Token) :
    Extends us (r.terminated wanted ts) (r'.terminated wanted (ts ++ us)) := by
  refine (expression_extends hr ts us).bind (fun e rest _ _ => ?_) fun e => ?_
  · exact (terminator_extends hr wanted rest us).map fun _ => e
  · rcases r.terminator_exhausted wanted with ⟨u, hok⟩ | ⟨d, herror, hd⟩
    · exact Or.inl ⟨e, by simp [hok]⟩
    · exact Or.inr ⟨d, by simp [herror], hd⟩

theorem terminated_exhausted (r : Reading) (wanted : Expectation) :
    ∃ d, r.terminated wanted [] = .error d ∧ d.fault.incomplete := by
  obtain ⟨d, herror, hd⟩ := r.expression_exhausted
  exact ⟨d, by rw [terminated, herror, bind_error], hd⟩

theorem outcome_printing_eq (r : Reading) (t : Token) (ts : List Token) :
    outcome (r.printing t ts) =
      (r.terminated .semicolonAfterStatement ts).bind fun p => .ok (.println (r.place t) p.1, p.2) := by
  rw [outcome_printing, terminated]
  cases outcome (r.expression ts) with
  | error d => rfl
  | ok p =>
      simp only [bind_ok]
      cases outcome (r.terminator .semicolonAfterStatement p.2) <;> rfl

theorem outcome_evaluation_eq (r : Reading) (t : Token) (more : List Token) :
    outcome (r.evaluation t more) =
      (r.terminated .semicolonAfterExpression (t :: more)).bind fun p =>
        .ok (.expr (r.place t) p.1, p.2) := by
  rw [outcome_evaluation, terminated]
  cases outcome (r.expression (t :: more)) with
  | error d => rfl
  | ok p =>
      simp only [bind_ok]
      cases outcome (r.terminator .semicolonAfterExpression p.2) <;> rfl

/-- The initialiser of a declaration, from its equals sign on. -/
def initialised (r : Reading) (name : Token) (isMutable : Bool) (ts : List Token) :
    Except Diagnostic (Stmt × List Token) :=
  (outcome (r.expect .equal .initializer ts)).bind fun q =>
    (r.terminated .semicolonAfterExpression q.2).bind fun p =>
      .ok (.declare (r.place name) name isMutable p.1, p.2)

theorem outcome_declaration_eq (r : Reading) (ts : List Token) :
    outcome (r.declaration ts) =
      (outcome (r.expect .identifier .nameAfterLet (mutableMark ts).rest)).bind fun p =>
        r.initialised p.1 (mutableMark ts).tree p.2 := by
  rw [outcome_declaration]
  cases outcome (r.expect .identifier .nameAfterLet (mutableMark ts).rest) with
  | error d => rfl
  | ok p =>
      simp only [bind_ok, initialised]
      cases outcome (r.expect .equal .initializer p.2) with
      | error d => rfl
      | ok q =>
          simp only [bind_ok, terminated]
          cases outcome (r.expression q.2) with
          | error d => rfl
          | ok u =>
              simp only [bind_ok]
              cases outcome (r.terminator .semicolonAfterExpression u.2) <;> rfl

theorem initialised_extends (hr : r.Agrees r') (name : Token) (isMutable : Bool) (ts us : List Token) :
    Extends us (r.initialised name isMutable ts) (r'.initialised name isMutable (ts ++ us)) := by
  refine (expect_extends hr _ _ ts us).bind (fun sign rest _ _ => ?_) fun sign => ?_
  · rw [hr.place]
    exact (terminated_extends hr _ rest us).map _
  · obtain ⟨d, herror, hd⟩ := r.terminated_exhausted .semicolonAfterExpression
    exact Or.inr ⟨d, by simp only [herror, bind_error], hd⟩

/-- More tokens leave the mark of a declaration as it is, if there is a token at all. -/
theorem mutableMark_append {ts : List Token} (hne : ts ≠ []) (us : List Token) :
    (mutableMark (ts ++ us)).tree = (mutableMark ts).tree ∧
      (mutableMark (ts ++ us)).rest = (mutableMark ts).rest ++ us := by
  cases ts with
  | nil => exact absurd rfl hne
  | cons t more =>
      by_cases ht : t.kind = .keyword .mutKw
      · simp [mutableMark, ht]
      · simp [mutableMark, ht]

theorem declaration_extends (hr : r.Agrees r') (ts us : List Token) :
    Extends us (outcome (r.declaration ts)) (outcome (r'.declaration (ts ++ us))) := by
  rw [outcome_declaration_eq, outcome_declaration_eq]
  by_cases hne : ts = []
  · subst hne
    exact .wanting rfl rfl
  · obtain ⟨htree, hrest⟩ := mutableMark_append hne us
    rw [htree, hrest]
    refine (expect_extends hr _ _ _ us).bind (fun name rest _ _ => ?_) fun name => ?_
    · exact initialised_extends hr name _ rest us
    · exact Or.inr ⟨_, rfl, rfl⟩

theorem statement_extends (hr : r.Agrees r') (t : Token) (more us : List Token)
    (hbody : Extends us (outcome (r.body more)) (outcome (r'.body (more ++ us)))) :
    Extends us (outcome (r.statement t more)) (outcome (r'.statement t (more ++ us))) := by
  rw [outcome_statement, outcome_statement]
  split
  · exact declaration_extends hr more us
  · split
    · rw [outcome_printing_eq, outcome_printing_eq, hr.place]
      exact (terminated_extends hr _ more us).map _
    · split
      · rw [hr.place]
        exact hbody.map _
      · rw [outcome_evaluation_eq, outcome_evaluation_eq, hr.place]
        exact (terminated_extends hr _ (t :: more) us).map _

theorem body_exhausted (r : Reading) : ∃ d, outcome (r.body []) = .error d ∧ d.fault.incomplete := by
  rw [outcome_body]
  exact ⟨_, rfl, rfl⟩

theorem body_extends (hr : r.Agrees r') (ts us : List Token) :
    Extends us (outcome (r.body ts)) (outcome (r'.body (ts ++ us))) := by
  obtain ⟨n, hn⟩ : ∃ n, ts.length = n := ⟨_, rfl⟩
  induction n using Nat.strongRecOn generalizing ts with
  | ind n ih =>
      cases ts with
      | nil =>
          obtain ⟨d, herror, hd⟩ := r.body_exhausted
          exact .wanting herror hd
      | cons t more =>
          simp only [List.length_cons] at hn
          rw [outcome_body, List.cons_append, outcome_body]
          dsimp only
          split
          · exact .read [] more
          · have hstatement := statement_extends hr t more us (ih more.length (by omega) more rfl)
            refine hstatement.bind (fun first rest hfirst _ => ?_) fun first => ?_
            · have hlt := length_lt_of_outcome hfirst
              exact (ih rest.length (by omega) rest rfl).map _
            · obtain ⟨d, herror, hd⟩ := r.body_exhausted
              exact Or.inr ⟨d, by simp only [herror, bind_error], hd⟩

/-- A failure to read a source stays if more tokens follow, unless it was for want of them. -/
theorem program_final (hr : r.Agrees r') {ts : List Token} {d : Diagnostic} (h : r.program ts = .error d)
    (hd : d.fault.incomplete = false) (us : List Token) : Fails d (r'.program (ts ++ us)) := by
  induction hn : ts.length using Nat.strongRecOn generalizing ts with
  | ind n ih =>
      rw [program_eq] at h
      cases ts with
      | nil => cases h
      | cons t more =>
          rw [List.cons_append, program_eq]
          dsimp only at h ⊢
          have hstatement := statement_extends hr t more us (body_extends hr more us)
          rw [bind_eq_error_iff] at h
          rcases h with hs | ⟨⟨first, rest⟩, hs, h⟩
          · exact (hstatement.error d hs hd).bind _
          · dsimp only at h
            split at h
            · cases h
            · rename_i hmode
              rw [bind_eq_error_iff] at h
              rcases h with hrest | ⟨others, -, h⟩
              · have hne : rest ≠ [] := by
                  rintro rfl
                  rw [program_eq] at hrest
                  cases hrest
                have hlt := length_lt_of_outcome hs
                simp only [List.length_cons] at hn
                rw [hstatement.ok _ _ hs (Or.inl hne), bind_ok]
                simp only [hr.mode, hmode, ↓reduceIte]
                exact (ih rest.length (by omega) hrest rfl).bind _
              · cases h

end Reading

/-! ## Sources -/

theorem Lexical.InClass.kind_ne {cls : Lexical.Class} {lexeme : Text} {kind : Token.Kind}
    {literal : Token.Literal} (h : Lexical.InClass cls lexeme kind literal) : kind ≠ .endOfInput := by
  have hpunctuation : ∀ p ∈ Lexical.punctuation, p.2 ≠ .endOfInput := by decide
  have hcomparisons : ∀ p ∈ Lexical.comparisons, p.2.1 ≠ .endOfInput ∧ p.2.2 ≠ .endOfInput := by decide
  cases h with
  | punctuation hmem => exact hpunctuation _ hmem
  | short hmem => exact (hcomparisons _ hmem).1
  | long hmem => exact (hcomparisons _ hmem).2
  | string => simp
  | whole => simp
  | fraction => simp
  | word =>
      unfold Token.Kind.ofWord
      split <;> simp

/-- The end of input is the last token, and no other. -/
theorem Token.scan_kind_ne {source text : Text} {tokens : List Token} {line : Int}
    (h : Token.scan source text = .ok (tokens ++ [endOfInput line])) :
    ∀ t ∈ tokens, t.kind ≠ .endOfInput := by
  intro t ht
  obtain ⟨cls, hclass⟩ := Lexical.inClass_of_scan h ht
  exact hclass.kind_ne

theorem Token.lastLine_append {tokens : List Token} (h : ∀ t ∈ tokens, t.kind ≠ .endOfInput) {stop : Token}
    (hstop : stop.kind = .endOfInput) (rest : List Token) : Token.lastLine (tokens ++ stop :: rest) = stop.line := by
  induction tokens with
  | nil =>
      cases rest with
      | nil => rfl
      | cons u rest => rw [List.nil_append, lastLine, if_pos hstop]; simp
  | cons t tokens ih =>
      obtain ⟨hkind, htokens⟩ := List.forall_mem_cons.1 h
      rw [List.cons_append, lastLine, if_neg hkind, ih htokens]
      simp

theorem parse_of_scan_ok {source text : Text} {tokens : List Token}
    (h : Token.scan (sourceOrDefault source) text = .ok tokens) (mode : Mode) :
    parse source mode text = parseTokens source mode tokens := by
  rw [parse, h]

theorem parse_of_scan_error {source text : Text} {d : Diagnostic}
    (h : Token.scan (sourceOrDefault source) text = .error d) (mode : Mode) :
    parse source mode text = .error d := by
  rw [parse, h]

theorem parseTokens_final {source : Text} {mode : Mode} {tokens : List Token} {line : Int} {d : Diagnostic}
    (hkinds : ∀ t ∈ tokens, t.kind ≠ .endOfInput)
    (h : parseTokens source mode (tokens ++ [.endOfInput line]) = .error d)
    (hd : d.fault.incomplete = false) (more : List Token) :
    ∃ d', parseTokens source mode (tokens ++ more) = .error d' := by
  have hnothing : [Token.endOfInput line].takeWhile (·.kind ≠ .endOfInput) = [] := rfl
  simp only [parseTokens] at h ⊢
  rw [takeWhile_tokens hkinds] at h ⊢
  rw [hnothing, List.append_nil] at h
  have hagrees : Reading.Agrees ⟨sourceOrDefault source, mode, Token.lastLine (tokens ++ [.endOfInput line])⟩
      ⟨sourceOrDefault source, mode, Token.lastLine (tokens ++ more)⟩ := ⟨rfl, rfl⟩
  obtain ⟨d', hd', -⟩ := Reading.program_final hagrees h hd _
  exact ⟨d', hd'⟩

/-- Why something has failed, and whether it was for want of input. -/
def reason? {α : Type} : Except Diagnostic α → Option (Text × Bool)
  | .ok _ => none
  | .error d => some (d.fault.reason, d.fault.incomplete)

theorem exists_of_reason? {α : Type} {x : Except Diagnostic α} {reason : Text} {incomplete : Bool}
    (h : reason? x = some (reason, incomplete)) :
    ∃ d, x = .error d ∧ d.fault.reason = reason ∧ d.fault.incomplete = incomplete := by
  cases x with
  | ok a => cases h
  | error d =>
      cases h
      exact ⟨d, rfl, rfl, rfl⟩

/-- A source that ends in a line feed and fails, but not for want of more, fails however it goes on. -/
theorem parse_failure_is_final (source : Text) (mode : Mode) {text : Text}
    (hline : text.getLast? = some Text.newline) {d : Diagnostic} (h : parse source mode text = .error d)
    (hd : d.fault.incomplete = false) (more : Text) : ∃ d', parse source mode (text ++ more) = .error d' := by
  obtain ⟨a, rfl⟩ := List.getLast?_eq_some_iff.1 hline
  rw [List.append_assoc, List.singleton_append]
  cases Lexical.scanned (sourceOrDefault source) a with
  | whole tokens hscan hlonger =>
      -- the tokens of the source are the first ones of every longer one
      have hend := hlonger []
      rw [Glyph.decode_nil, Token.scanFrom] at hend
      rw [parse_of_scan_ok hend] at h
      cases hmore : Token.scanFrom (sourceOrDefault source) (1 + a.count Text.newline + 1) (a.length + 1)
          (Glyph.decode more) with
      | error d' =>
          refine ⟨d', parse_of_scan_error ?_ mode⟩
          rw [hlonger, hmore]
          rfl
      | ok tokens' =>
          have hlonger' := hlonger more
          rw [hmore] at hlonger'
          rw [parse_of_scan_ok hlonger']
          exact parseTokens_final (Token.scan_kind_ne hscan) h hd tokens'
  | @dead d' _ _ hlonger _ => exact ⟨d', parse_of_scan_error (hlonger more) mode⟩
  | unclosed hopen _ hlonger _ =>
      rw [parse_of_scan_error hlonger, Except.error.injEq] at h
      subst h
      rw [hopen] at hd
      cases hd

/-- The target is refused in `(a) = b`. If the source goes on with `+ ;`, the right side fails first. -/
theorem parse_failure_is_final_target :
    (Text.ofString "(a) = b\n").getLast? = some Text.newline ∧
      ∃ d, parse [] .prompt (Text.ofString "(a) = b\n") = .error d ∧ d.fault.incomplete = false ∧
        d.fault.reason = Text.ofString "Error at '=': Invalid assignment value" ∧
        ∃ d', parse [] .prompt (Text.ofString "(a) = b\n" ++ Text.ofString "+ ;") = .error d' := by
  have hline : (Text.ofString "(a) = b\n").getLast? = some Text.newline := by decide
  have hrefused : reason? (parse [] .prompt (Text.ofString "(a) = b\n")) =
      some (Text.ofString "Error at '=': Invalid assignment value", false) := by decide +kernel
  obtain ⟨d, hfail, hreason, hd⟩ := exists_of_reason? hrefused
  exact ⟨hline, d, hfail, hd, hreason, parse_failure_is_final [] .prompt hline hfail hd _⟩

end LetScript
