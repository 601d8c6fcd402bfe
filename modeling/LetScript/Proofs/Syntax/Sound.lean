import LetScript.Proofs.Syntax.Reader

/-!
# What is read is in the grammar

A reader that succeeds has consumed tokens that spell its tree.
-/

namespace LetScript

open Grammar Phrase

/-! ## Token classes -/

theorem Layer.admits_iff {l : Layer} {kind : Token.Kind} : l.admits kind ↔ kind ∈ operators l := by
  cases l <;> simp [Layer.admits, operators, or_assoc]

theorem Token.Kind.isSign_iff {kind : Token.Kind} : kind.isSign ↔ kind ∈ signs := by
  simp [Token.Kind.isSign, signs]

theorem Token.Kind.isLiteral_iff {kind : Token.Kind} : kind.isLiteral ↔ kind ∈ literals := by
  simp only [Token.Kind.isLiteral, literals, Bool.or_eq_true, decide_eq_true_eq, List.mem_cons,
    List.not_mem_nil, or_false]
  grind

namespace Reading

variable {r : Reading}

/-! ## Single tokens -/

theorem expect_eq_ok {kind : Token.Kind} {wanted : Expectation} {ts rest : List Token} {t : Token}
    (h : outcome (r.expect kind wanted ts) = .ok (t, rest)) : ts = t :: rest ∧ t.kind = kind := by
  rw [outcome_expect] at h
  cases ts with
  | nil => cases h
  | cons t' more =>
      dsimp only at h
      split at h
      · cases h; exact ⟨rfl, ‹_›⟩
      · cases h

/-- A terminator is there, or may be put in. -/
theorem terminator_eq_ok {wanted : Expectation} {ts rest : List Token} {u : Unit}
    (h : outcome (r.terminator wanted ts) = .ok (u, rest)) :
    ∃ used stop, ts = used ++ rest ∧ stop.kind = .semicolon ∧ Completed r.mode used [stop] := by
  have hadded : r.mode = .prompt → Completed r.mode [] [⟨.semicolon, [], .none, 0⟩] :=
    fun hr => .added hr rfl .nil
  rw [outcome_terminator] at h
  cases ts with
  | nil =>
      dsimp only at h
      split at h
      · cases h; exact ⟨[], _, rfl, rfl, hadded ‹_›⟩
      · cases h
  | cons t more =>
      dsimp only at h
      split at h
      · cases h; exact ⟨[t], t, rfl, ‹_›, .refl _⟩
      · split at h
        · cases h; exact ⟨[], _, rfl, rfl, hadded ‹_›⟩
        · cases h

/-! ## Expressions -/

/-- The tokens that stand before the rest spell the expression. -/
def Spelled (r : Reading) (level : Level) (ts : List Token) (e : Expr) (rest : List Token) : Prop :=
  ∃ used, ts = used ++ rest ∧ Spells r.source level used e

/-- What the reader of a level makes of `n` tokens is spelled by those it consumes. -/
def SoundAt (r : Reading) (level : Level) (n : Nat) : Prop :=
  ∀ ts e rest, ts.length = n → r.readLevel level ts = .ok (e, rest) → Spelled r level ts e rest

theorem primary_sound {n : Nat} (ih : ∀ m < n, ∀ level, SoundAt r level m) : SoundAt r .primary n := by
  intro ts e rest hn h
  cases ts with
  | nil => cases h
  | cons t more =>
      rw [readLevel, outcome_primary] at h
      split at h
      · cases h
        exact ⟨[t], rfl, .literal (Token.Kind.isLiteral_iff.1 ‹_›)⟩
      · split at h
        · cases h
          exact ⟨[t], rfl, .reference ‹_›⟩
        · split at h
          · rename_i ht
            rw [bind_eq_ok_iff] at h
            obtain ⟨⟨inner, rest₁⟩, hi, h⟩ := h
            rw [bind_eq_ok_iff] at h
            obtain ⟨⟨closing, rest₂⟩, hc, h⟩ := h
            have hlt : more.length < n := by simp [← hn]
            obtain ⟨used, rfl, hs⟩ := ih _ hlt .expression _ _ _ rfl hi
            obtain ⟨rfl, hk⟩ := expect_eq_ok hc
            cases h
            exact ⟨t :: used ++ [closing], by simp, .group ht hs hk⟩
          · cases h

theorem unary_sound {n : Nat} (ih : ∀ m < n, ∀ level, SoundAt r level m)
    (hprimary : SoundAt r .primary n) : SoundAt r .unary n := by
  intro ts e rest hn h
  rw [readLevel, outcome_unary] at h
  cases ts with
  | nil => cases h
  | cons t more =>
      dsimp only at h
      split at h
      · rename_i ht
        rw [bind_eq_ok_iff] at h
        obtain ⟨⟨operand, rest'⟩, ho, h⟩ := h
        have hlt : more.length < n := by simp [← hn]
        obtain ⟨used, rfl, hs⟩ := ih _ hlt .unary _ _ _ rfl ho
        cases h
        exact ⟨t :: used, rfl, .unary (Token.Kind.isSign_iff.1 ht) hs⟩
      · obtain ⟨used, hts, hs⟩ := hprimary _ _ _ hn h
        exact ⟨used, hts, .primary hs⟩

/-- A chain goes on from what has been read of it: the invariant is that this spells the tree so far. -/
theorem chain_sound {l : Layer} {n : Nat} (ih : ∀ m < n, ∀ level, SoundAt r level m)
    {read : List Token} {left : Expr} {ts : List Token} {e : Expr} {rest : List Token}
    (hn : ts.length ≤ n) (hleft : Spells r.source (.layer l) read left)
    (h : outcome (r.chain l left ts) = .ok (e, rest)) :
    ∃ used, ts = used ++ rest ∧ Spells r.source (.layer l) (read ++ used) e := by
  induction hk : ts.length using Nat.strongRecOn generalizing read left ts with
  | ind k ihk =>
      rw [outcome_chain] at h
      cases ts with
      | nil => cases h; exact ⟨[], rfl, by simpa using hleft⟩
      | cons op more =>
          dsimp only at h
          split at h
          · rename_i hop
            rw [outcome_operand, bind_eq_ok_iff] at h
            obtain ⟨⟨right, more'⟩, ho, h⟩ := h
            simp only [List.length_cons] at hn hk
            obtain ⟨used, rfl, hs⟩ := ih _ (by omega) _ _ _ _ rfl ho
            simp only [List.length_append] at hn hk
            dsimp only at h
            obtain ⟨used', rfl, hs'⟩ := ihk more'.length (by omega) (by omega)
              (.binary hleft (Layer.admits_iff.1 hop) hs) h rfl
            exact ⟨op :: used ++ used', by simp, by simpa using hs'⟩
          · cases h; exact ⟨[], rfl, by simpa using hleft⟩

theorem layer_sound {l : Layer} {n : Nat} (ih : ∀ m < n, ∀ level, SoundAt r level m)
    (hoperand : SoundAt r (operandLevel l) n) : SoundAt r (.layer l) n := by
  intro ts e rest hn h
  rw [readLevel, outcome_layer, outcome_operand, bind_eq_ok_iff] at h
  obtain ⟨⟨left, more⟩, ho, h⟩ := h
  obtain ⟨used, rfl, hs⟩ := hoperand _ _ _ hn ho
  have hle : more.length ≤ n := by simp [← hn]
  obtain ⟨used', rfl, hs'⟩ := chain_sound ih hle (.operand hs) h
  exact ⟨used ++ used', by simp, hs'⟩

theorem expression_sound {n : Nat} (ih : ∀ m < n, ∀ level, SoundAt r level m)
    (hequality : SoundAt r (.layer .equality) n) : SoundAt r .expression n := by
  intro ts e rest hn h
  rw [readLevel, outcome_expression, bind_eq_ok_iff] at h
  obtain ⟨⟨left, more⟩, hl, h⟩ := h
  obtain ⟨used, rfl, hs⟩ := hequality _ _ _ hn hl
  cases more with
  | nil => cases h; exact ⟨used, rfl, .equality hs⟩
  | cons sign more =>
      dsimp only at h
      split at h
      · rename_i hsign
        rw [bind_eq_ok_iff] at h
        obtain ⟨⟨value, rest'⟩, hv, h⟩ := h
        have hlt : more.length < n := by simp [← hn]; omega
        obtain ⟨used', rfl, hs'⟩ := ih _ hlt .expression _ _ _ rfl hv
        cases left with
        | reference context name =>
            cases h
            obtain ⟨rfl, hname, rfl⟩ := hs.reference_inv rfl
            exact ⟨name :: sign :: used', by simp, .assign hname hsign hs'⟩
        | _ => cases h
      · cases h; exact ⟨used, rfl, .equality hs⟩

/-- What the reader of a level returns is spelled by the tokens it consumes. -/
theorem readLevel_sound {level : Level} {ts : List Token} {e : Expr} {rest : List Token}
    (h : r.readLevel level ts = .ok (e, rest)) : Spelled r level ts e rest :=
  Level.induct (P := SoundAt r) (fun _ => primary_sound) (fun _ => unary_sound)
    (fun _ _ => layer_sound) (fun _ => expression_sound) level ts.length ts e rest rfl h

theorem expression_spelled {ts : List Token} {e : Expr} {rest : List Token}
    (h : outcome (r.expression ts) = .ok (e, rest)) : Spelled r .expression ts e rest :=
  readLevel_sound h

/-! ## Statements -/

theorem mutableMark_cases (ts : List Token) :
    (∃ mark rest, ts = mark :: rest ∧ mark.kind = .keyword .mutKw ∧
      (mutableMark ts).tree = true ∧ (mutableMark ts).rest = rest) ∨
    ((mutableMark ts).tree = false ∧ (mutableMark ts).rest = ts) := by
  cases ts with
  | nil => exact Or.inr ⟨rfl, rfl⟩
  | cons t rest =>
      by_cases ht : t.kind = .keyword .mutKw
      · exact Or.inl ⟨t, rest, rfl, ht, by simp [mutableMark, ht], by simp [mutableMark, ht]⟩
      · exact Or.inr ⟨by simp [mutableMark, ht], by simp [mutableMark, ht]⟩

/-- The tokens that stand before the rest spell the statement, once they are completed. -/
def SpelledStmt (r : Reading) (ts : List Token) (s : Stmt) (rest : List Token) : Prop :=
  ∃ used us, ts = used ++ rest ∧ Completed r.mode used us ∧ SpellsStmt r.source us s

theorem declaration_sound {t : Token} (ht : t.kind = .keyword .letKw) {more : List Token} {s : Stmt}
    {rest : List Token} (h : outcome (r.declaration more) = .ok (s, rest)) :
    SpelledStmt r (t :: more) s rest := by
  rw [outcome_declaration, bind_eq_ok_iff] at h
  obtain ⟨⟨name, rest₁⟩, hname, h⟩ := h
  rw [bind_eq_ok_iff] at h
  obtain ⟨⟨sign, rest₂⟩, hsign, h⟩ := h
  rw [bind_eq_ok_iff] at h
  obtain ⟨⟨init, rest₃⟩, hinit, h⟩ := h
  rw [bind_eq_ok_iff] at h
  obtain ⟨⟨u, rest₄⟩, hstop, h⟩ := h
  obtain ⟨hmark, hname'⟩ := expect_eq_ok hname
  obtain ⟨rfl, hsign'⟩ := expect_eq_ok hsign
  obtain ⟨used, rfl, hs⟩ := expression_spelled hinit
  obtain ⟨end', stop, rfl, hstop', hend⟩ := terminator_eq_ok hstop
  rcases mutableMark_cases more with ⟨mark, rest, rfl, hmut, htree, hrest⟩ | ⟨htree, hrest⟩
  · rw [htree] at h
    cases h
    rw [hrest] at hmark
    exact ⟨t :: mark :: name :: sign :: used ++ end', _, by simp [hmark], (Completed.refl _).append hend,
      .declareMutable ht hmut hname' hsign' hs hstop'⟩
  · rw [htree] at h
    cases h
    rw [hrest] at hmark
    exact ⟨t :: name :: sign :: used ++ end', _, by simp [hmark], (Completed.refl _).append hend,
      .declare ht hname' hsign' hs hstop'⟩

theorem printing_sound {t : Token} (ht : t.kind = .keyword .printlnKw) {more : List Token} {s : Stmt}
    {rest : List Token} (h : outcome (r.printing t more) = .ok (s, rest)) :
    SpelledStmt r (t :: more) s rest := by
  rw [outcome_printing, bind_eq_ok_iff] at h
  obtain ⟨⟨value, rest₁⟩, hvalue, h⟩ := h
  rw [bind_eq_ok_iff] at h
  obtain ⟨⟨u, rest₂⟩, hstop, h⟩ := h
  obtain ⟨used, rfl, hs⟩ := expression_spelled hvalue
  obtain ⟨end', stop, rfl, hstop', hend⟩ := terminator_eq_ok hstop
  cases h
  exact ⟨t :: used ++ end', _, by simp, (Completed.refl _).append hend, .println ht hs hstop'⟩

theorem evaluation_sound {t : Token} {more : List Token} {s : Stmt} {rest : List Token}
    (h : outcome (r.evaluation t more) = .ok (s, rest)) : SpelledStmt r (t :: more) s rest := by
  rw [outcome_evaluation, bind_eq_ok_iff] at h
  obtain ⟨⟨value, rest₁⟩, hvalue, h⟩ := h
  rw [bind_eq_ok_iff] at h
  obtain ⟨⟨u, rest₂⟩, hstop, h⟩ := h
  obtain ⟨used, hused, hs⟩ := expression_spelled hvalue
  obtain ⟨end', stop, rfl, hstop', hend⟩ := terminator_eq_ok hstop
  cases h
  obtain ⟨first, others, rfl, -⟩ := hs.starts
  obtain ⟨rfl, rfl⟩ : t = first ∧ more = others ++ (end' ++ rest) := by simpa using hused
  exact ⟨t :: others ++ end', _, by simp, (Completed.refl _).append hend, .expr hs hstop'⟩

/-- The tokens that stand before a closing brace and the rest spell the statements, once they are
completed. -/
def SpelledBody (r : Reading) (ts : List Token) (statements : List Stmt) (rest : List Token) : Prop :=
  ∃ used us closing, ts = used ++ closing :: rest ∧ closing.kind = .rightBrace ∧
    Completed r.mode used us ∧ SpellsProgram r.source us statements

/-- A statement is sound if the body that it may open is. -/
theorem statement_sound {t : Token} {more : List Token} {s : Stmt} {rest : List Token}
    (hbody : ∀ statements rest, outcome (r.body more) = .ok (statements, rest) →
      SpelledBody r more statements rest)
    (h : outcome (r.statement t more) = .ok (s, rest)) : SpelledStmt r (t :: more) s rest := by
  rw [outcome_statement] at h
  split at h
  · exact declaration_sound ‹_› h
  · split at h
    · exact printing_sound ‹_› h
    · split at h
      · rename_i ht
        rw [bind_eq_ok_iff] at h
        obtain ⟨⟨statements, rest'⟩, hb, h⟩ := h
        obtain ⟨used, us, closing, rfl, hclosing, hus, hs⟩ := hbody _ _ hb
        cases h
        exact ⟨t :: used ++ [closing], t :: us ++ [closing], by simp, (Completed.kept hus).append (.refl _),
          .block ht hs hclosing⟩
      · exact evaluation_sound h

theorem body_sound {ts : List Token} {statements : List Stmt} {rest : List Token}
    (h : outcome (r.body ts) = .ok (statements, rest)) : SpelledBody r ts statements rest := by
  induction hn : ts.length using Nat.strongRecOn generalizing ts statements rest with
  | ind n ih =>
      rw [outcome_body] at h
      cases ts with
      | nil => cases h
      | cons t more =>
          dsimp only at h
          simp only [List.length_cons] at hn
          split at h
          · cases h
            exact ⟨[], [], t, rfl, ‹_›, .nil, .nil⟩
          · rw [bind_eq_ok_iff] at h
            obtain ⟨⟨first, rest₁⟩, hfirst, h⟩ := h
            rw [bind_eq_ok_iff] at h
            obtain ⟨⟨others, rest₂⟩, hothers, h⟩ := h
            have hlt := length_lt_of_outcome hfirst
            obtain ⟨used, us, hused, hus, hs⟩ :=
              statement_sound (fun _ _ hb => ih more.length (by omega) hb rfl) hfirst
            obtain ⟨used', us', closing, rfl, hclosing, hus', hs'⟩ :=
              ih rest₁.length (by omega) hothers rfl
            cases h
            exact ⟨used ++ used', us ++ us', closing, by simp [hused], hclosing, hus.append hus',
              .cons hs hs'⟩

/-- A statement that is read is spelled by the tokens that have been read, once they are completed. -/
theorem statement_spelled {t : Token} {more : List Token} {s : Stmt} {rest : List Token}
    (h : outcome (r.statement t more) = .ok (s, rest)) : SpelledStmt r (t :: more) s rest :=
  statement_sound (fun _ _ => body_sound) h

/-- What is read of a file is spelled by all its tokens. -/
theorem program_sound (hr : r.mode = .file) {ts : List Token} {statements : List Stmt}
    (h : r.program ts = .ok statements) : SpellsProgram r.source ts statements := by
  induction hn : ts.length using Nat.strongRecOn generalizing ts statements with
  | ind n ih =>
      rw [program_eq] at h
      cases ts with
      | nil => cases h; exact .nil
      | cons t more =>
          dsimp only at h
          rw [bind_eq_ok_iff] at h
          obtain ⟨⟨first, rest⟩, hfirst, h⟩ := h
          simp only [hr, reduceCtorEq, ↓reduceIte] at h
          rw [bind_eq_ok_iff] at h
          obtain ⟨others, hothers, h⟩ := h
          cases h
          have hlt := length_lt_of_outcome hfirst
          obtain ⟨used, us, hused, hus, hs⟩ := statement_spelled hfirst
          rw [hr] at hus
          rw [hus.eq_of_file] at hs
          simp only [List.length_cons] at hn
          rw [hused]
          exact .cons hs (ih rest.length (by omega) hothers rfl)

end Reading

end LetScript
