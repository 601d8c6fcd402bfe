import LetScript.Proofs.Syntax.Relabelling
import LetScript.Proofs.Syntax.Sentences

/-!
# A line feed at the end

A source that goes on with one line feed has the same tokens, and ends one line further down. This shows
where the source ended early, in the line that the diagnostic names; a string that is still open is named by
the line of its quotation mark, which stays.
-/

namespace LetScript

/-! ## Faults of the scanner -/

theorem Token.piece_error_cls {offset : Nat} {g : Glyph} {gs : List Glyph} {fault : Fault}
    (h : piece offset g gs = .error fault) : fault.cls = .lex := by
  cases g with
  | stray b => cases h; rfl
  | char c =>
      simp only [piece] at h
      split at h
      · cases h
      · split at h <;> cases h
      · split_ifs at h
        · rw [Lexical.stringPiece_error h]
          rfl
        · cases h; rfl
        · cases h; rfl

theorem Token.scanFrom_error_cls {source : Text} {line offset : Nat} {gs : List Glyph} {d : Diagnostic}
    (h : scanFrom source line offset gs = .error d) : d.fault.cls = .lex := by
  fun_induction scanFrom source line offset gs with
  | case1 => cases h
  | case2 line offset g rest fault hpiece =>
      cases h
      exact piece_error_cls hpiece
  | case3 line offset g rest p reach hpiece used ih =>
      cases hrest : scanFrom source (line + lineFeeds used) (offset + (used.flatMap Glyph.bytes).length)
          (rest.drop reach) with
      | ok more =>
          rw [hrest] at h
          cases h
      | error d' =>
          rw [hrest] at h
          cases h
          exact ih hrest

/-! ## Ends -/

/-- The diagnostic after one more line feed: the end of the source is one line further down. -/
def Diagnostic.lineDown (d : Diagnostic) : Diagnostic :=
  match d.fault with
  | .endedEarly wanted => ⟨{ d.context with line := d.context.line + 1 }, .endedEarly wanted⟩
  | _ => d

theorem Diagnostic.lineDown_fault (d : Diagnostic) : d.lineDown.fault = d.fault := by
  unfold lineDown
  split
  · rename_i hfault
    exact hfault.symm
  · rfl

theorem Diagnostic.lineDown_eq_self {d : Diagnostic} (h : ∀ wanted, d.fault ≠ .endedEarly wanted) :
    d.lineDown = d := by
  unfold lineDown
  split
  · rename_i hfault
    exact absurd hfault (h _)
  · rfl

theorem Diagnostic.endingAt_endingAt (source : Text) (line : Int) (d : Diagnostic) :
    (d.endingAt source line).endingAt source (line + 1) = (d.endingAt source line).lineDown := by
  obtain ⟨context, fault⟩ := d
  cases fault <;> rfl

/-- The end of a source moves down from where the diagnostic says that it is. -/
theorem Reading.program_lineDown (source : Text) (mode : Mode) (line : Int) (ts : List Token) :
    Reading.program ⟨source, mode, line + 1⟩ ts =
      (Reading.program ⟨source, mode, line⟩ ts).mapError Diagnostic.lineDown := by
  have hhere := Reading.program_ending source mode line line ts
  rw [Reading.program_ending source mode line]
  cases hprogram : Reading.program ⟨source, mode, line⟩ ts with
  | ok program => rfl
  | error d =>
      rw [hprogram] at hhere
      have hplace : d = d.endingAt source line := Except.error.inj hhere
      have hmoved := d.endingAt_endingAt source line
      rw [← hplace] at hmoved
      exact congrArg Except.error hmoved

theorem Token.lastLine_of_endOfInput {tokens : List Token} (h : ∀ t ∈ tokens, t.kind ≠ .endOfInput)
    (line : Int) : Token.lastLine (tokens ++ [.endOfInput line]) = line :=
  Token.lastLine_append h rfl []

/-- A line feed at the end moves the end of the source, and changes nothing else. -/
theorem parse_append_newline (source : Text) (mode : Mode) (text : Text) :
    parse source mode (text ++ [Text.newline]) = (parse source mode text).mapError Diagnostic.lineDown := by
  have hlexical : ∀ d, Token.scan (sourceOrDefault source) text = .error d → d.lineDown = d := by
    intro d h
    refine Diagnostic.lineDown_eq_self fun wanted hfault => ?_
    have hcls := Token.scanFrom_error_cls h
    rw [hfault] at hcls
    cases hcls
  cases Lexical.scanned (sourceOrDefault source) text with
  | whole tokens hscan hlonger =>
      have hkinds := Token.scan_kind_ne hscan
      have hlonger := hlonger []
      rw [Glyph.decode_nil, Token.scanFrom] at hlonger
      rw [parse_eq_program hscan, parse_eq_program hlonger, Token.lastLine_of_endOfInput hkinds,
        Token.lastLine_of_endOfInput hkinds]
      push_cast
      exact Reading.program_lineDown _ mode _ tokens
  | dead _ hscan hlonger _ =>
      rw [parse_of_scan_error hscan, parse_of_scan_error (hlonger [])]
      exact congrArg Except.error (hlexical _ hscan).symm
  | unclosed _ hscan hlonger _ =>
      rw [parse_of_scan_error hscan, parse_of_scan_error hlonger]
      exact congrArg Except.error (hlexical _ hscan).symm

theorem parse_nil (source : Text) (mode : Mode) : parse source mode [] = .ok [] := by
  have hscan : Token.scan (sourceOrDefault source) [] = .ok ([] ++ [.endOfInput 1]) := Lexical.scan_nil _
  rw [parse_eq_program hscan, Reading.program_eq]

end LetScript
