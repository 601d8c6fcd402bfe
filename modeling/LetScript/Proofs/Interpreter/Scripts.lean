import LetScript.Proofs.Execution.Faults
import LetScript.Proofs.Interpreter.Concatenation
import LetScript.Proofs.Syntax.LineFeed

/-!
# Script files

A script may start with an interpreter line, which is cut off before the rest is run as a source. The line
feed behind it stays, so the source starts with an empty line and what it says about lines holds of the file
too. A byte is counted from this line feed, and not from the start of the file.
-/

namespace LetScript

/-! ## Below an empty line -/

/-- The places of a source that has got an empty line above it. -/
def Rereading.lower (source : Text) : Rereading :=
  ⟨Relocation.labels ⟨source, 1⟩, Diagnostic.furtherDown 1 1⟩

theorem Rereading.lower_fits (source : Text) (mode : Mode) (line : Int) :
    (lower source).Fits ⟨source, mode, line⟩ ⟨source, mode, line + 1⟩ := by
  refine ⟨rfl, fun t => rfl, fun wanted ts => ?_⟩
  cases ts <;> rfl

theorem Lexical.scan_newline_cons (source text : Text) :
    Token.scan source (Text.newline :: text) = Token.scanFrom source 2 1 (Glyph.decode text) := by
  rw [Token.scan, Glyph.decode_cons_of_ofChar Glyph.ofChar_newline]
  exact scanFrom_newline source 1 0 text

/-- Below an empty line a source is read as before, one line further down. -/
theorem parse_newline_cons (source : Text) (mode : Mode) (text : Text) :
    parse source mode (Text.newline :: text) =
      match parse source mode text with
      | .ok program => .ok (Stmt.relocateAll ⟨sourceOrDefault source, 1⟩ program)
      | .error d => .error (d.furtherDown 1 1) := by
  cases hscan : Token.scan (sourceOrDefault source) text with
  | error d =>
      have hlower := Lexical.scanFrom_error_furtherDown hscan 1 1
      rw [← Lexical.scan_newline_cons] at hlower
      rw [parse_of_scan_error hscan, parse_of_scan_error hlower]
  | ok tokens =>
      obtain ⟨before, line, rfl⟩ := Lexical.exists_endOfInput hscan
      have hlower := Lexical.scanFrom_moved hscan (sourceOrDefault source) 1 1
      rw [← Lexical.scan_newline_cons, List.map_append] at hlower
      have hkinds := Token.scan_kind_ne hscan
      have hkinds' : ∀ t ∈ before.map (Token.moved (1 : Nat)), t.kind ≠ .endOfInput := by simpa using hkinds
      rw [parse_eq_program hscan, Token.lastLine_of_endOfInput hkinds]
      have hend : [Token.endOfInput line].map (Token.moved (1 : Nat)) = [.endOfInput (line + 1)] := rfl
      rw [hend] at hlower
      have hprogram := parse_eq_program hlower mode
      rw [Token.lastLine_of_endOfInput hkinds'] at hprogram
      rw [hprogram]
      refine (Reading.program_relabel (Rereading.lower_fits _ mode line) before).trans ?_
      cases Reading.program ⟨sourceOrDefault source, mode, line⟩ before <;> rfl

/-! ## Faults of scripts -/

/-- The diagnostics of a reader are its refusals. -/
theorem Reading.program_error_cls {r : Reading} {ts : List Token} {d : Diagnostic}
    (h : r.program ts = .error d) : d.fault.cls = .parse := by
  -- a reading does not change if all other diagnostics become refusals
  let ρ : Rereading := ⟨.same, fun d => if d.fault.cls = .parse then d else r.refuse .expression []⟩
  have hfits : ρ.Fits r r := by
    refine ⟨rfl, fun t => rfl, fun wanted ts => ?_⟩
    cases ts with
    | nil => rfl
    | cons t ts => rfl
  have hprogram := Reading.program_relabel hfits ts
  rw [show ts.map (Token.relabel ρ) = ts from Token.map_relabel_same ts, h] at hprogram
  have hd : d = ρ.diagnostic d := Except.error.inj hprogram
  rw [hd]
  dsimp only [ρ]
  split
  · assumption
  · rfl

theorem Fault.Running.furtherDown_eq {d : Diagnostic} (h : d.fault.Running) :
    d.furtherDown 1 1 = d.moved 1 := by
  rw [Diagnostic.furtherDown, Fault.furtherOn_eq_self fun offset hfault => by simp [hfault, Running] at h]
  rfl

theorem Lexical.Stuck.offset_eq {offset n : Nat} {t : Text} {fault : Fault} (h : Stuck offset t fault)
    (hfault : fault = .invalidEncoding n) : n = offset := by
  cases h <;> cases hfault <;> rfl

namespace Interpreter

theorem scan_of_run_lex {it : Interpreter} {source text : Text} {d : Diagnostic}
    (h : (it.run source text).1 = .error d) (hlex : d.fault.cls = .lex) :
    Token.scan (sourceOrDefault source) text = .error d := by
  cases hscan : Token.scan (sourceOrDefault source) text with
  | error d' =>
      rw [run, parse_of_scan_error hscan] at h
      cases h
      rfl
  | ok tokens =>
      rw [run, parse_of_scan_ok hscan] at h
      cases hprogram : parseTokens source it.mode tokens with
      | error d' =>
          rw [hprogram] at h
          obtain rfl : d' = d := Except.error.inj h
          rw [Reading.program_error_cls hprogram] at hlex
          cases hlex
      | ok program =>
          rw [hprogram] at h
          have hraises := Stmt.execFrom_raises .nil program it.state
          simp only [Stmt.execAll] at h
          split at h
          · rename_i heq
            rw [heq] at hraises
            cases h
            exact absurd hlex (hraises d rfl).running.cls_ne_lex
          · cases h

/-- Below an empty line a source runs as before, and reports its failure one line further down. -/
theorem run_newline_cons (it : Interpreter) (source text : Text) :
    it.run source (Text.newline :: text) =
      ((it.run source text).1.mapError (·.furtherDown 1 1), (it.run source text).2) := by
  rw [run, parse_newline_cons, run]
  cases hparse : parse source it.mode text with
  | error d => rfl
  | ok program =>
      obtain ⟨us, -, hspells⟩ := spells_of_parse hparse
      have hraises := Stmt.execFrom_raises .nil program it.state
      simp only [Stmt.execAll]
      rw [hspells.execFrom_moved 1]
      cases hexec : Stmt.execFrom .nil program it.state with
      | mk result st =>
          cases result with
          | ok v => rfl
          | error d =>
              rw [hexec] at hraises
              have hmoved := (hraises d rfl).running.furtherDown_eq
              simp only [Except.mapError, hmoved]

/-! ## Interpreter lines -/

/-- The interpreter line of a script, without its line feed; nothing if there is none. -/
def interpreterLine (content : Text) : Text :=
  if (Text.ofString "#!").isPrefixOf content then content.takeWhile (· ≠ Text.newline) else []

theorem interpreterLine_append_scriptText (content : Text) :
    interpreterLine content ++ scriptText content = content := by
  rw [interpreterLine, scriptText]
  split
  · exact List.takeWhile_append_dropWhile
  · rfl

theorem newline_not_mem_interpreterLine (content : Text) : Text.newline ∉ interpreterLine content := by
  rw [interpreterLine]
  split
  · intro hmem
    have hne := List.mem_takeWhile_imp hmem
    simp at hne
  · exact List.not_mem_nil

theorem interpreterLine_eq_nil_iff (content : Text) :
    interpreterLine content = [] ↔ ¬ Text.ofString "#!" <+: content := by
  rw [interpreterLine]
  split
  · rename_i hstart
    have hstart := List.isPrefixOf_iff_prefix.1 hstart
    obtain ⟨rest, rfl⟩ := hstart
    simp only [List.prefix_append, not_true_eq_false, iff_false]
    exact List.cons_ne_nil _ _
  · rename_i hstart
    rw [List.isPrefixOf_iff_prefix] at hstart
    simpa using hstart

theorem scriptText_of_interpreterLine {l : Text} (hl : Text.newline ∉ l) (r : Text) :
    scriptText (Text.ofString "#!" ++ l ++ Text.newline :: r) = Text.newline :: r := by
  have hstart : (Text.ofString "#!").isPrefixOf (Text.ofString "#!" ++ l ++ Text.newline :: r) := by
    rw [List.isPrefixOf_iff_prefix, List.append_assoc]
    exact List.prefix_append _ _
  have hline : ∀ b ∈ Text.ofString "#!" ++ l, (b ≠ Text.newline : Bool) := by
    intro b hb
    rcases List.mem_append.1 hb with hb | hb
    · have hmarks : Text.newline ∉ Text.ofString "#!" := by decide
      exact decide_eq_true fun heq => hmarks (heq ▸ hb)
    · simpa using fun heq : b = Text.newline => hl (heq ▸ hb)
  rw [scriptText, if_pos hstart, List.dropWhile_append_of_pos hline]
  rfl

/-- The diagnostics of a script file. A lexical one stands where the file, behind its interpreter line, falls
apart no further; its line is that of the file, and its byte is counted from the end of the interpreter line,
which is a byte of the file exactly if there is no such line. A script with an interpreter line does what the
source below this line does, and reports its failure one line further down. -/
theorem script_lines_are_those_of_the_file (it : Interpreter) (path content : Text) :
    (∀ d, (it.runScript path content).1 = .error d → d.fault.cls = .lex →
      ∃ parts gap rest, Lexical.Split (scriptText content) parts gap rest ∧
        Lexical.Stuck (Lexical.textOf parts ++ gap).length rest d.fault ∧
        let before := interpreterLine content ++ (Lexical.textOf parts ++ gap)
        content = before ++ rest ∧
        d.context = .atLine (sourceOrDefault path) (1 + before.count Text.newline) ∧
        ∀ offset, d.fault = .invalidEncoding offset →
          offset + (interpreterLine content).length = before.length ∧
          (offset = before.length ↔ ¬ Text.ofString "#!" <+: content)) ∧
    ∀ l r, Text.newline ∉ l → content = Text.ofString "#!" ++ l ++ Text.newline :: r →
      (it.runScript path content).1 = (it.run path r).1.mapError (·.furtherDown 1 1) ∧
      (it.runScript path content).2 = (it.run path r).2 := by
  constructor
  · intro d h hlex
    have hscan := scan_of_run_lex h hlex
    obtain ⟨parts, gap, rest, hsplit, rfl | ⟨fault, hstuck⟩⟩ := Lexical.exists_split (scriptText content)
    · rw [Lexical.scan_of_split hsplit] at hscan
      cases hscan
    · rw [Lexical.scan_of_stuck hsplit hstuck] at hscan
      cases hscan
      have hline (t : Text) : (interpreterLine content ++ t).count Text.newline = t.count Text.newline := by
        rw [List.count_append, List.count_eq_zero.2 (newline_not_mem_interpreterLine content), Nat.zero_add]
      refine ⟨parts, gap, rest, hsplit, hstuck, ?_, ?_, fun offset hfault => ?_⟩
      · rw [List.append_assoc, ← hsplit.text, interpreterLine_append_scriptText]
      · rw [hline]
      · have hoffset : offset = (Lexical.textOf parts ++ gap).length := hstuck.offset_eq hfault
        rw [← interpreterLine_eq_nil_iff, ← List.length_eq_zero_iff, List.length_append, ← hoffset]
        omega
  · rintro l r hl rfl
    rw [runScript, scriptText_of_interpreterLine hl, run_newline_cons]
    exact ⟨rfl, rfl⟩

/-- A string over two lines and a byte that is no character, below an interpreter line. -/
theorem script_lines_are_those_of_the_file_stray :
    let it := new .file .unlimited
    let l := Text.ofString " script"
    let r := Text.ofString "\"a\nb\" " ++ [0xFF]
    let content := Text.ofString "#!" ++ l ++ Text.newline :: r
    Text.newline ∉ l ∧ ∃ d, (it.runScript [] content).1 = .error d ∧ d.fault.cls = .lex ∧
      d.fault = .invalidEncoding 7 ∧
      (∃ before rest, content = before ++ rest ∧ d.context.line = 1 + before.count Text.newline ∧
        7 + (interpreterLine content).length = before.length) ∧
      .error d = (it.run [] r).1.mapError (·.furtherDown 1 1) ∧
      (it.runScript [] content).2 = (it.run [] r).2 := by
  intro it l r content
  have hl : Text.newline ∉ l := by decide
  have hstray : Lexical.strayPlace? (Token.scan (sourceOrDefault []) (scriptText content)) = some (3, 7) := by
    decide +kernel
  obtain ⟨d, hscan, -, hfault⟩ := Lexical.exists_of_strayPlace? hstray
  have hrun : (it.runScript [] content).1 = .error d := by
    rw [runScript, run, parse_of_scan_error hscan]
  have hlex : d.fault.cls = .lex := by rw [hfault]; rfl
  obtain ⟨hlexical, hlower⟩ := script_lines_are_those_of_the_file it [] content
  obtain ⟨parts, gap, rest, -, -, hcontent, hcontext, hoffset⟩ := hlexical d hrun hlex
  obtain ⟨hresult, hstate⟩ := hlower l r hl rfl
  refine ⟨hl, d, hrun, hlex, hfault, ⟨_, rest, hcontent, ?_, (hoffset 7 hfault).1⟩, ?_, hstate⟩
  · rw [hcontext]
    rfl
  · rw [← hrun, hresult]

/-- The fifth byte of the file is reported as the second. -/
theorem script_bytes_are_not_those_of_the_file :
    let content := Text.ofString "#!x\n" ++ [0xFF]
    content.length = 5 ∧ content.getLast? = some 0xFF ∧
      reason? ((new .file .unlimited).runScript [] content).1 =
        some (Text.ofString "Invalid UTF-8 encoding at byte 1", false) := by
  decide +kernel

end Interpreter

end LetScript
