import LetScript.Proofs.Syntax.Finality
import LetScript.Proofs.Syntax.Prompt
import LetScript.Proofs.Syntax.Relocation

/-!
# Texts of one statement

A text that is read as one statement can stand in a file among others, each on lines of its own, or on the
line that is entered at a prompt. In either place it is read as the same statement, which only stands
elsewhere.
-/

namespace LetScript

open Grammar Phrase

/-! ## Sources and their tokens -/

theorem parse_eq_program {source text : Text} {tokens : List Token} {line : Int}
    (h : Token.scan (sourceOrDefault source) text = .ok (tokens ++ [.endOfInput line])) (mode : Mode) :
    parse source mode text =
      Reading.program ⟨sourceOrDefault source, mode, Token.lastLine (tokens ++ [.endOfInput line])⟩
        tokens := by
  have hnothing : [Token.endOfInput line].takeWhile (·.kind ≠ .endOfInput) = [] := rfl
  rw [parse_of_scan_ok h, parseTokens, takeWhile_tokens (Token.scan_kind_ne h), hnothing, List.append_nil]

/-- The token is the one of its lexeme; a terminator may have been put in without one. -/
def Token.OfLexeme (t : Token) : Prop :=
  t.kind = .semicolon ∨ ∃ cls, Lexical.InClass cls t.lexeme t.kind t.literal

/-- Whatever the mode, a source is read as statements that tokens with their lexemes spell. -/
theorem spells_of_parse {source text : Text} {mode : Mode} {program : List Stmt}
    (h : parse source mode text = .ok program) :
    ∃ us, (∀ t ∈ us, t.OfLexeme) ∧ SpellsProgram (sourceOrDefault source) us program := by
  cases Lexical.scanned (sourceOrDefault source) text with
  | whole tokens hscan _ =>
      rw [parse_eq_program hscan] at h
      obtain ⟨us, hus, hspells⟩ := Reading.program_spelled h
      exact ⟨us, fun t ht => (hus t ht).symm.imp_right (Lexical.inClass_of_scan hscan), hspells⟩
  | dead _ hscan _ _ =>
      rw [parse_of_scan_error hscan] at h
      cases h
  | unclosed _ hscan _ _ =>
      rw [parse_of_scan_error hscan] at h
      cases h

theorem parse_file_of_spells {source text : Text} {tokens : List Token} {line : Int} {program : List Stmt}
    (hscan : Token.scan (sourceOrDefault source) text = .ok (tokens ++ [.endOfInput line]))
    (h : SpellsProgram (sourceOrDefault source) tokens program) : parse source .file text = .ok program := by
  rw [parse_eq_program hscan]
  exact Reading.program_of_spells rfl h

theorem spells_of_parse_file {source text : Text} {program : List Stmt}
    (h : parse source .file text = .ok program) :
    ∃ tokens line, Token.scan (sourceOrDefault source) text = .ok (tokens ++ [.endOfInput line]) ∧
      SpellsProgram (sourceOrDefault source) tokens program := by
  cases Lexical.scanned (sourceOrDefault source) text with
  | whole tokens hscan _ =>
      rw [parse_eq_program hscan] at h
      exact ⟨tokens, _, hscan, Reading.program_sound rfl h⟩
  | dead _ hscan _ _ =>
      rw [parse_of_scan_error hscan] at h
      cases h
  | unclosed _ hscan _ _ =>
      rw [parse_of_scan_error hscan] at h
      cases h

theorem parse_prompt_of_spells {source text : Text} {tokens : List Token} {line : Int} {stmt : Stmt}
    (hscan : Token.scan (sourceOrDefault source) text = .ok (tokens ++ [.endOfInput line]))
    (h : SpellsStmt (sourceOrDefault source) tokens stmt) : parse source .prompt text = .ok [stmt] := by
  have hprogram := SpellsProgram.cons h .nil
  rw [List.append_nil] at hprogram
  rw [parse_eq_program hscan]
  exact Reading.program_prompt_of_spells (r := ⟨_, _, _⟩) rfl hprogram

/-! ## Sentences -/

/-- A text of one statement, with its tokens and the statement. -/
structure Sentence (source : Text) where
  text : Text
  tokens : List Token
  stmt : Stmt
  lastLine : Int
  scan_text : Token.scan source text = .ok (tokens ++ [.endOfInput lastLine])
  spells : SpellsStmt source tokens stmt

namespace Sentence

variable {source : Text}

/-- The lines that a sentence takes. -/
def height (s : Sentence source) : Nat := s.text.count Text.newline + 1

/-- The tokens of sentences, one below the other, with so many lines above them. -/
def tokensFrom (k : Nat) : List (Sentence source) → List Token
  | [] => []
  | s :: rest => s.tokens.map (Token.moved k) ++ tokensFrom (k + s.height) rest

/-- The statements of sentences, one below the other, with so many lines above them. -/
def programFrom (k : Nat) : List (Sentence source) → List Stmt
  | [] => []
  | s :: rest => s.stmt.relocate ⟨source, k⟩ :: programFrom (k + s.height) rest

/-- The lines that sentences take. -/
def heights : List (Sentence source) → Nat
  | [] => 0
  | s :: rest => s.height + heights rest

theorem tokensFrom_moved (k m : Nat) (sentences : List (Sentence source)) :
    (tokensFrom k sentences).map (Token.moved m) = tokensFrom (k + m) sentences := by
  induction sentences generalizing k with
  | nil => rfl
  | cons s rest ih =>
      have hmoved : Token.moved m ∘ Token.moved k = Token.moved ↑(k + m) := by
        funext t
        simp [Token.moved, Int.add_assoc]
      rw [tokensFrom, List.map_append, List.map_map, hmoved, ih, tokensFrom, Nat.add_right_comm]

theorem spells_programFrom (k : Nat) (sentences : List (Sentence source)) :
    SpellsProgram source (tokensFrom k sentences) (programFrom k sentences) := by
  induction sentences generalizing k with
  | nil => exact .nil
  | cons s rest ih => exact .cons (s.spells.relocate ⟨source, k⟩) (ih _)

theorem programFrom_append (k : Nat) (before after : List (Sentence source)) :
    programFrom k (before ++ after) = programFrom k before ++ programFrom (k + heights before) after := by
  induction before generalizing k with
  | nil => rfl
  | cons s before ih =>
      rw [List.cons_append, programFrom, ih, programFrom]
      simp [heights, Nat.add_assoc]

theorem length_programFrom (k : Nat) (sentences : List (Sentence source)) :
    (programFrom k sentences).length = sentences.length := by
  induction sentences generalizing k with
  | nil => rfl
  | cons s rest ih => simp [programFrom, ih]

theorem heights_eq_count (sentences : List (Sentence source)) :
    heights sentences = ((sentences.map text).flatMap Text.line).count Text.newline := by
  induction sentences with
  | nil => rfl
  | cons s rest ih =>
      rw [List.map_cons, List.flatMap_cons, List.count_append, ← ih]
      simp [heights, height, Text.line]

/-- Sentences that are joined by line feeds are split into the tokens of all of them. -/
theorem scan_join (sentences : List (Sentence source)) :
    ∃ line, Token.scan source (Text.join [Text.newline] (sentences.map text)) =
      .ok (tokensFrom 0 sentences ++ [.endOfInput line]) := by
  match sentences with
  | [] => exact ⟨1, Lexical.scan_nil source⟩
  | [s] =>
      refine ⟨s.lastLine, ?_⟩
      have htokens : tokensFrom 0 [s] = s.tokens := by
        rw [tokensFrom, tokensFrom, List.append_nil]
        exact Token.map_moved_zero _
      have hjoin : Text.join [Text.newline] ([s].map text) = s.text := by simp [Text.join]
      rw [htokens, hjoin, s.scan_text]
  | s :: next :: rest =>
      -- the others are split as if they stood alone, and then their tokens are moved down
      obtain ⟨line, hrest⟩ := scan_join (next :: rest)
      refine ⟨line + s.height, ?_⟩
      rw [List.map_cons, List.map_cons, Text.join_cons_cons, ← List.map_cons, List.append_assoc,
        List.singleton_append, Lexical.scan_append_newline s.scan_text hrest, List.map_append, ← List.append_assoc]
      have htokens : tokensFrom 0 (s :: next :: rest) =
          s.tokens ++ (tokensFrom 0 (next :: rest)).map (Token.moved s.height) := by
        rw [tokensFrom, tokensFrom_moved]
        exact congrArg (· ++ _) (Token.map_moved_zero _)
      rw [htokens]
      rfl

/-- A file of sentences is read as their statements. -/
theorem parse_join {source : Text} (sentences : List (Sentence (sourceOrDefault source))) :
    parse source .file (Text.join [Text.newline] (sentences.map text)) = .ok (programFrom 0 sentences) := by
  obtain ⟨line, hscan⟩ := scan_join sentences
  exact parse_file_of_spells hscan (spells_programFrom 0 sentences)

/-- A sentence that is entered at a prompt is read as its statement. -/
theorem parse_line (s : Sentence source) (name : Text) :
    parse name .prompt s.text.line = .ok [s.stmt.relocate ⟨sourceOrDefault name, 0⟩] := by
  have hline := Lexical.scan_append_newline s.scan_text (Lexical.scan_nil source)
  have hscan := Lexical.scan_source hline (sourceOrDefault name)
  have hspells := s.spells.relocate ⟨sourceOrDefault name, 0⟩
  rw [Token.map_moved_zero] at hspells
  exact parse_prompt_of_spells hscan hspells

theorem exists_of_parse {source text : Text} {stmt : Stmt} (h : parse source .file text = .ok [stmt]) :
    ∃ s : Sentence (sourceOrDefault source), s.text = text := by
  obtain ⟨tokens, line, hscan, hspells⟩ := spells_of_parse_file h
  cases hspells with
  | cons hfirst hothers =>
      cases hothers
      rw [List.append_nil] at hscan
      exact ⟨⟨text, _, stmt, line, hscan, hfirst⟩, rfl⟩

theorem exists_of_parse_all {source : Text} {texts : List Text}
    (h : ∀ text ∈ texts, ∃ stmt, parse source .file text = .ok [stmt]) :
    ∃ sentences : List (Sentence (sourceOrDefault source)), sentences.map text = texts := by
  induction texts with
  | nil => exact ⟨[], rfl⟩
  | cons text texts ih =>
      obtain ⟨⟨stmt, hstmt⟩, htexts⟩ := List.forall_mem_cons.1 h
      obtain ⟨s, rfl⟩ := exists_of_parse hstmt
      obtain ⟨sentences, rfl⟩ := ih htexts
      exact ⟨s :: sentences, rfl⟩

end Sentence

end LetScript
