import LetScript.Proofs.Syntax.Complete
import LetScript.Tree.Sexpr

/-!
# Prompts and files

A prompt reads what a file may start with, and only the first statement of it. Without the terminators it
reads nothing else: wherever they are left out, they can be put in, and then a file is read as the same
statement.
-/

namespace LetScript

open Grammar Phrase

namespace Reading

variable {r : Reading} {ts : List Token}

theorem program_prompt_of_spells (hr : r.mode = .prompt) {statements : List Stmt}
    (h : SpellsProgram r.source ts statements) : r.program ts = .ok (statements.take 1) := by
  rw [program_eq]
  cases h with
  | nil => rfl
  | cons hfirst hothers =>
      obtain ⟨t, more, rfl, -, hread⟩ := findsStmt_of_spells hfirst
      rw [List.cons_append]
      dsimp only
      rw [hread, bind_ok, if_pos hr]
      rfl

/-- A prompt reads nothing, or one statement. -/
theorem program_prompt_spelled (hr : r.mode = .prompt) {statements : List Stmt}
    (h : r.program ts = .ok statements) :
    statements = [] ∨ ∃ stmt rest, statements = [stmt] ∧ SpelledStmt r ts stmt rest := by
  rw [program_eq] at h
  cases ts with
  | nil =>
      cases h
      exact .inl rfl
  | cons t more =>
      dsimp only at h
      rw [bind_eq_ok_iff] at h
      obtain ⟨⟨first, rest⟩, hfirst, h⟩ := h
      rw [if_pos hr] at h
      cases h
      exact .inr ⟨first, rest, rfl, statement_spelled hfirst⟩

theorem program_prompt_of_expression (hr : r.mode = .prompt) {t : Token} {e : Expr}
    (h : Spells r.source .expression (t :: ts) e) :
    r.program (t :: ts) = .ok [.expr (anchor r.source t) e] := by
  obtain ⟨first, more, heq, hfirst⟩ := h.starts
  cases heq
  obtain ⟨hlet, hprintln, hleft, -⟩ := starters_ne hfirst
  have hvalue : outcome (r.expression (t :: ts ++ [])) = .ok (e, []) := (finds_of_spells h).readLevel .nil
  rw [List.append_nil] at hvalue
  rw [program_eq]
  dsimp only
  rw [outcome_statement, if_neg hlet, if_neg hprintln, if_neg hleft, outcome_evaluation, hvalue, bind_ok]
  dsimp only
  rw [outcome_terminator]
  dsimp only
  rw [if_pos hr, bind_ok, bind_ok, if_pos hr, place_eq_anchor]

/-- In either mode, what is read is spelled by its tokens and some semicolons. -/
theorem program_spelled {statements : List Stmt} (h : r.program ts = .ok statements) :
    ∃ us, (∀ t ∈ us, t ∈ ts ∨ t.kind = .semicolon) ∧ SpellsProgram r.source us statements := by
  cases hr : r.mode with
  | file => exact ⟨ts, fun _ => .inl, program_sound hr h⟩
  | prompt =>
      rcases program_prompt_spelled hr h with rfl | ⟨stmt, rest, rfl, used, us, rfl, hus, hs⟩
      · exact ⟨[], by simp, .nil⟩
      · refine ⟨us ++ [], fun t ht => ?_, .cons hs .nil⟩
        rw [List.append_nil] at ht
        exact (hus.mem ht).imp (List.mem_append_left rest) id

end Reading

theorem parseTokens_prompt_of_file {source : Text} {ts : List Token} {statements : List Stmt}
    (h : parseTokens source .file ts = .ok statements) :
    parseTokens source .prompt ts = .ok (statements.take 1) := by
  simp only [parseTokens] at h ⊢
  have hspells := Reading.program_sound (r := ⟨_, _, _⟩) rfl h
  exact Reading.program_prompt_of_spells (r := ⟨_, _, _⟩) rfl hspells

theorem parseTokens_file_of_prompt {source : Text} {ts : List Token} {stmt : Stmt}
    (h : parseTokens source .prompt ts = .ok [stmt]) :
    ∃ used us, used <+: ts ∧ Completed .prompt used us ∧ parseTokens source .file us = .ok [stmt] := by
  simp only [parseTokens] at h
  obtain ⟨_, rest, hone, used, us, hused, hus, hs⟩ :=
    (Reading.program_prompt_spelled rfl h).resolve_left (List.cons_ne_nil _ _)
  cases hone
  have hread : used <+: ts.takeWhile (·.kind ≠ .endOfInput) := ⟨rest, hused.symm⟩
  -- semicolons do not end the input, and neither does a token that has been read
  have hkinds : ∀ t ∈ us, t.kind ≠ .endOfInput := by
    intro t ht
    rcases hus.mem ht with hmem | hstop
    · simpa using List.mem_takeWhile_imp (hread.subset hmem)
    · simp [hstop]
  refine ⟨used, us, hread.trans (List.takeWhile_prefix _), hus, ?_⟩
  have hprogram := SpellsProgram.cons hs .nil
  rw [List.append_nil] at hprogram
  exact (parseTokens_file_iff source hkinds [stmt]).2 hprogram

/-- A prompt reads a file as its first statement. What it reads as a statement, a file has as its only one if
semicolons are put in at some places, behind which the tokens may go on as they like. -/
theorem prompt_is_file_with_optional_terminators (source : Text) (ts : List Token) :
    (∀ statements, parseTokens source .file ts = .ok statements →
      parseTokens source .prompt ts = .ok (statements.take 1)) ∧
    ∀ stmt, parseTokens source .prompt ts = .ok [stmt] →
      ∃ used us, used <+: ts ∧ Completed .prompt used us ∧ parseTokens source .file us = .ok [stmt] :=
  ⟨fun _ => parseTokens_prompt_of_file, fun _ => parseTokens_file_of_prompt⟩

/-- A block of `a - b` and `c` that lacks its semicolons, and more behind it. -/
theorem prompt_is_file_with_optional_terminators_block :
    let name (letter : String) : Token := ⟨.identifier, Text.ofString letter, .none, 1⟩
    let minus : Token := ⟨.minus, Text.ofString "-", .none, 2⟩
    let ts := [.bare .leftBrace 1, name "a", minus, name "b", name "c", .bare .rightBrace 3, name "d"]
    (parseTokens [] .file ts).toOption.isNone ∧
      ∃ stmt, parseTokens [] .prompt ts = .ok [stmt] ∧
        stmt.sexpr = Text.ofString "(block (expr (- a b)) (expr c))" ∧
        ∃ used us, used <+: ts ∧ Completed .prompt used us ∧ parseTokens [] .file us = .ok [stmt] := by
  intro name minus ts
  have hrefused : (parseTokens [] .file ts).toOption.isNone := by decide +kernel
  have hforms : (parseTokens [] .prompt ts).toOption.map Stmt.sexprs =
      some [Text.ofString "(block (expr (- a b)) (expr c))"] := by decide +kernel
  cases hparse : parseTokens [] .prompt ts with
  | error d =>
      rw [hparse] at hforms
      cases hforms
  | ok statements =>
      rw [hparse] at hforms
      cases statements with
      | nil => cases hforms
      | cons stmt others =>
          obtain ⟨hform, hothers⟩ : stmt.sexpr = _ ∧ Stmt.sexprs others = [] :=
            List.cons.inj (Option.some.inj hforms)
          cases others with
          | nil =>
              exact ⟨hrefused, stmt, rfl, hform,
                (prompt_is_file_with_optional_terminators [] ts).2 stmt hparse⟩
          | cons => cases hothers

end LetScript
