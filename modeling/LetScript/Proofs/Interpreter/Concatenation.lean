import LetScript.Interpreter
import LetScript.Proofs.Execution.Replay
import LetScript.Proofs.Syntax.Sentences

/-!
# Sources one below the other

If a source ends with a line, another one can be put below it. The two are then read as the statements of
the first and those of the second further down, and running them as one is running the first and, if it does
not fail, the second.
-/

namespace LetScript

open Grammar

/-! ## Statements of one source -/

/-- The diagnostic, so many lines further down. -/
def Diagnostic.moved (k : Int) (d : Diagnostic) : Diagnostic :=
  { d with context := { d.context with line := d.context.line + k } }

section

variable {source : Text} {ts : List Token} {program : List Stmt}

/-- Statements stand in the source that they have been read from. -/
theorem Grammar.SpellsProgram.relocate_self (h : SpellsProgram source ts program) :
    Stmt.relocateAll ⟨source, 0⟩ program = program := by
  have hself := h.relocate ⟨source, 0⟩
  rw [Token.map_moved_zero] at hself
  have hread := Reading.program_of_spells (r := ⟨source, .file, 0⟩) rfl h
  rw [Reading.program_of_spells rfl hself] at hread
  exact Except.ok.inj hread

theorem Grammar.SpellsProgram.source_of_execFrom (h : SpellsProgram source ts program) {v : Value}
    {st st' : State} {d : Diagnostic} (hexec : Stmt.execFrom v program st = (.error d, st')) :
    d.context.source = source := by
  have hraises := Stmt.execFrom_raises v program st
  rw [hexec] at hraises
  exact (SpellsProgram.places h _ (hraises d rfl).context).1

/-- Further down in their source, statements do the same. -/
theorem Grammar.SpellsProgram.execFrom_moved (h : SpellsProgram source ts program) (k : Int) (v : Value)
    (st : State) :
    Stmt.execFrom v (Stmt.relocateAll ⟨source, k⟩ program) st =
      ((Stmt.execFrom v program st).1.mapError (·.moved k), (Stmt.execFrom v program st).2) := by
  rw [h.execFrom_relocate ⟨source, k⟩ v st]
  cases hexec : Stmt.execFrom v program st with
  | mk result st' =>
      cases result with
      | ok w => rfl
      | error d =>
          have hd : d.relocate ⟨source, k⟩ = d.moved k := by
            rw [← h.source_of_execFrom hexec]
            rfl
          rw [relocated_error, hd]
          rfl

end

theorem Stmt.execFrom_append (v : Value) (program others : List Stmt) (st : State) :
    Stmt.execFrom v (program ++ others) st =
      match Stmt.execFrom v program st with
      | (.error d, st') => (.error d, st')
      | (.ok w, st') => Stmt.execFrom w others st' := by
  induction program generalizing v st with
  | nil => rfl
  | cons stmt rest ih =>
      rw [List.cons_append, Stmt.execFrom, Stmt.execFrom]
      cases stmt.exec st with
      | mk result st' =>
          cases result with
          | error d => rfl
          | ok w => exact ih w st'

/-! ## Reading two sources as one -/

theorem parse_append {source a b : Text} {first second : List Stmt}
    (hend : a = [] ∨ a.getLast? = some Text.newline) (ha : parse source .file a = .ok first)
    (hb : parse source .file b = .ok second) :
    parse source .file (a ++ b) =
      .ok (first ++ Stmt.relocateAll ⟨sourceOrDefault source, a.count Text.newline⟩ second) := by
  obtain ⟨tokens, line, hscan, hspells⟩ := spells_of_parse_file ha
  obtain ⟨tokens', line', hscan', hspells'⟩ := spells_of_parse_file hb
  have hjoined := Lexical.scan_append hend hscan hscan'
  rw [List.map_append, ← List.append_assoc] at hjoined
  exact parse_file_of_spells hjoined (hspells.append (hspells'.relocate ⟨_, _⟩))

/-! ## Running two sources as one -/

namespace Interpreter

/-- The outcome of a file whose statements are known. -/
theorem run_file {it : Interpreter} (hmode : it.mode = .file) {source text : Text} {program : List Stmt}
    (hparse : parse source .file text = .ok program) :
    it.run source text =
      match Stmt.execAll program it.state with
      | (.error d, st) => (.error d, { it with state := st, hadError := true })
      | (.ok _, st) => (.ok .nil, { it with state := st }) := by
  rw [run, hmode, hparse]
  dsimp only
  cases Stmt.execAll program it.state with
  | mk result st => cases result <;> rfl

/-- One source below another, which ends with a line: they are read as the statements of the first and then
those of the second, further down by the lines of the first. Running them as one is running the first and, if
it does not fail, the second, whose failure is reported further down. -/
theorem run_append_eq_run_then_run {it : Interpreter} (hmode : it.mode = .file) {source a b : Text}
    {first second : List Stmt} (hend : a = [] ∨ a.getLast? = some Text.newline)
    (ha : parse source .file a = .ok first) (hb : parse source .file b = .ok second) :
    Stmt.relocateAll ⟨sourceOrDefault source, 0⟩ second = second ∧
    parse source .file (a ++ b) =
      .ok (first ++ Stmt.relocateAll ⟨sourceOrDefault source, a.count Text.newline⟩ second) ∧
    it.run source (a ++ b) =
      match it.run source a with
      | (.error d, it') => (.error d, it')
      | (.ok _, it') =>
        ((it'.run source b).1.mapError (·.moved (a.count Text.newline)), (it'.run source b).2) := by
  obtain ⟨tokens, line, -, hspells⟩ := spells_of_parse_file hb
  have hparse := parse_append hend ha hb
  refine ⟨hspells.relocate_self, hparse, ?_⟩
  rw [run_file hmode hparse, run_file hmode ha, Stmt.execAll, Stmt.execFrom_append, Stmt.execAll]
  cases Stmt.execFrom .nil first it.state with
  | mk result st =>
      cases result with
      | error d => rfl
      | ok v =>
          dsimp only
          have hsecond := run_file (show ({ it with state := st } : Interpreter).mode = .file from hmode) hb
          rw [hspells.execFrom_moved, hsecond, Stmt.execAll]
          -- the value that the first source ends with is not seen
          have hvalue : second = [] ∨ Stmt.execFrom v second st = Stmt.execFrom .nil second st := by
            cases second with
            | nil => exact .inl rfl
            | cons stmt rest => exact .inr (by rw [Stmt.execFrom, Stmt.execFrom])
          rcases hvalue with rfl | hvalue
          · rfl
          · rw [hvalue]
            cases Stmt.execFrom .nil second st with
            | mk result st' => cases result <;> rfl

/-- The second source assigns and then fails, below a first one that ends with a comment. -/
theorem run_append_eq_run_then_run_assigned :
    let it := Interpreter.new .file .unlimited
    let a := Text.ofString "let mut x = nil; // none\n"
    let b := Text.ofString "x = true;\nx = y;"
    ∃ first second v d, parse [] .file a = .ok first ∧ parse [] .file b = .ok second ∧
      parse [] .file (a ++ b) = .ok (first ++ Stmt.relocateAll ⟨sourceOrDefault [], 1⟩ second) ∧
      (it.run [] a).1 = .ok v ∧ ((it.run [] a).2.run [] b).1 = .error d ∧
      d.fault.reason = Text.ofString "Name 'y' is not defined" ∧
      it.run [] (a ++ b) = (.error (d.moved 1), ((it.run [] a).2.run [] b).2) := by
  intro it a b
  have hreads (text : Text) (h : (parse [] .file text).toOption.isSome) :
      ∃ program, parse [] .file text = .ok program := by
    cases hparse : parse [] .file text with
    | error d => rw [hparse] at h; cases h
    | ok program => exact ⟨program, rfl⟩
  have hmode : it.mode = .file := rfl
  have hone : a.count Text.newline = 1 := by decide
  have hruns : reason? (it.run [] a).1 = none := by decide +kernel
  have hfails : reason? ((it.run [] a).2.run [] b).1 =
      some (Text.ofString "Name 'y' is not defined", false) := by decide +kernel
  obtain ⟨first, ha⟩ := hreads a (by decide +kernel)
  obtain ⟨second, hb⟩ := hreads b (by decide +kernel)
  obtain ⟨d, hd, hreason, -⟩ := exists_of_reason? hfails
  obtain ⟨-, hparse, hrun⟩ := run_append_eq_run_then_run hmode (.inr (by decide)) ha hb
  rw [hone] at hparse hrun
  cases hfirst : it.run [] a with
  | mk result it' =>
      rw [hfirst] at hruns hd hrun
      cases result with
      | error d => cases hruns
      | ok v =>
          refine ⟨first, second, v, d, ha, hb, hparse, rfl, hd, hreason, ?_⟩
          rw [hrun]
          dsimp only
          rw [hd]
          rfl

end Interpreter

end LetScript
