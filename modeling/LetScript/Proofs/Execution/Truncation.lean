import LetScript.Proofs.Execution.Replay
import LetScript.Proofs.Execution.Scoping

/-!
# Runs whose output is cut off

A sink that accepts so many writes and no more cuts a run off, and does nothing else: up to the write that
it refuses everything is as in a run whose output is accepted, and from there on nothing happens but that the
open blocks are left. What a run prints is listed line by line, each with its place and with the names as
they are at that moment, so that the line which is refused tells how the run ends.
-/

namespace LetScript

/-! ## What is printed -/

/-- A line that is printed. -/
structure Printing where
  /-- Where the statement stands that prints it. -/
  context : Context
  /-- The names at the moment when it is printed. -/
  scope : Scope
  line : Text

mutual

/-- What a statement prints, up to its end or its failure. -/
def Stmt.printings : Stmt → State → List Printing
  | .println c value, st =>
    match value.eval st.scope with
    | (.error _, _) => []
    | (.ok v, s) => [⟨c, s, v.display.line⟩]
  | .block _ body, st => Stmt.printingsFrom body (st.withScope st.scope.enter)
  | .expr _ _, _ => []
  | .declare _ _ _ _, _ => []
  | .absent, _ => []
  | .foreign _ _, _ => []

/-- What statements print in order, up to the first failure. -/
def Stmt.printingsFrom : List Stmt → State → List Printing
  | [], _ => []
  | stmt :: rest, st =>
    stmt.printings st ++
      match stmt.exec st with
      | (.error _, _) => []
      | (.ok _, st') => Stmt.printingsFrom rest st'

end

/-- What a run of a source prints. -/
def Interpreter.printings (it : Interpreter) (source text : Text) : List Printing :=
  match parse source it.mode text with
  | .error _ => []
  | .ok program => Stmt.printingsFrom program it.state

/-- The writes of printings. -/
def Printing.lines (printings : List Printing) : List Text := printings.map Printing.line

/-- A declaration prints nothing. -/
theorem Stmt.declare_sink (c : Context) (name : Token) (isMutable : Bool) (init : Expr) (st : State) :
    ((Stmt.declare c name isMutable init).exec st).2.sink = st.sink := by
  simp only [Stmt.exec]
  split
  · rfl
  · split <;> rfl

mutual

/-- A sink that accepts everything holds what is printed. -/
theorem Stmt.sink_of_accepts (stmt : Stmt) {st : State} (h : st.sink.Accepts) :
    (stmt.exec st).2.sink = st.sink.appended (Printing.lines (stmt.printings st)) := by
  match stmt with
  | .expr _ _ => exact (Sink.appended_nil _).symm
  | .println c value =>
      simp only [Stmt.exec, Stmt.printings]
      cases value.eval st.scope with
      | mk result s =>
          cases result with
          | error d => exact (Sink.appended_nil _).symm
          | ok v =>
              simp only [h.offer]
              rfl
  | .declare c name isMutable init =>
      rw [Stmt.declare_sink]
      exact (Sink.appended_nil _).symm
  | .block _ body =>
      have hentered : (st.withScope st.scope.enter).sink.Accepts := h
      have hbody := Stmt.sink_of_accepts_from .nil body hentered
      simp only [Stmt.exec, Stmt.printings]
      split <;> rename_i heq <;> rw [heq] at hbody <;> exact hbody
  | .absent => exact (Sink.appended_nil _).symm
  | .foreign _ _ => exact (Sink.appended_nil _).symm

theorem Stmt.sink_of_accepts_from (v : Value) (program : List Stmt) {st : State} (h : st.sink.Accepts) :
    (Stmt.execFrom v program st).2.sink =
      st.sink.appended (Printing.lines (Stmt.printingsFrom program st)) := by
  match program with
  | [] => exact (Sink.appended_nil _).symm
  | stmt :: rest =>
      have hfirst := Stmt.sink_of_accepts stmt h
      simp only [Stmt.execFrom, Stmt.printingsFrom]
      cases hexec : stmt.exec st with
      | mk result st' =>
          rw [hexec] at hfirst
          cases result with
          | error d => simpa using hfirst
          | ok w =>
              have haccepts : st'.sink.Accepts := by
                rw [hfirst]
                exact h.appended _
              dsimp only
              rw [Stmt.sink_of_accepts_from w rest haccepts, hfirst, Sink.appended_appended]
              simp [Printing.lines]

end

/-! ## Sinks that accept no more -/

namespace Sink

/-- The next `n` writes are accepted, whatever they are, and all after them are refused. -/
structure AcceptsOnly (s : Sink) (n : Nat) : Prop where
  accepts : ∀ (texts : List Text) (next : Text), texts.length < n →
    s.refusal? (s.offered ++ texts ++ [next]) = none
  refuses : ∀ (texts : List Text) (next : Text), n ≤ texts.length →
    ∃ cause, s.refusal? (s.offered ++ texts ++ [next]) = some cause

variable {s : Sink} {n : Nat}

theorem limited_acceptsOnly (n : Nat) : (limited n).AcceptsOnly n := by
  constructor
  · intro texts next h
    simp only [limited, List.nil_append, List.length_append, List.length_singleton]
    exact if_pos h
  · intro texts next h
    simp only [limited, List.nil_append, List.length_append, List.length_singleton]
    exact ⟨closed, if_neg (by omega)⟩

theorem AcceptsOnly.appended (h : s.AcceptsOnly n) {texts : List Text} (hle : texts.length ≤ n) :
    (s.appended texts).AcceptsOnly (n - texts.length) := by
  constructor
  · intro more next hmore
    have hroom := h.accepts (texts ++ more) next (by rw [List.length_append]; omega)
    simpa [Sink.appended] using hroom
  · intro more next hmore
    have hfull := h.refuses (texts ++ more) next (by rw [List.length_append]; omega)
    simpa [Sink.appended] using hfull

theorem AcceptsOnly.offer_pos (h : s.AcceptsOnly n) (hn : 0 < n) (text : Text) :
    s.offer text = (none, s.appended [text]) := by
  have hroom := h.accepts [] text hn
  rw [List.append_nil] at hroom
  simp only [offer, hroom]
  rfl

theorem AcceptsOnly.offer_zero (h : s.AcceptsOnly 0) (text : Text) :
    ∃ cause, s.refusal? (s.offered ++ [text]) = some cause ∧
      s.offer text = (some cause, ⟨s.writes, s.offered ++ [text], s.refusal?⟩) := by
  obtain ⟨cause, hcause⟩ := h.refuses [] text (Nat.le_refl 0)
  rw [List.append_nil] at hcause
  exact ⟨cause, hcause, by simp only [offer, hcause]⟩

end Sink

/-! ## Runs that are cut off -/

/-- How a run ends with a sink that accepts only `n` writes, given what is printed and how the run ends if
everything is accepted. -/
inductive CutOff (sink : Sink) (n : Nat) (printings : List Printing)
    (whole : Except Diagnostic Value × State) : Except Diagnostic Value × State → Prop
  /-- There is room for all that is printed. -/
  | never : printings.length ≤ n →
      CutOff sink n printings whole (whole.1, ⟨whole.2.scope, sink.appended (Printing.lines printings)⟩)
  /-- A line is refused, and the run ends there with the global names as they are. -/
  | line {p : Printing} {cause : Text} {after : State} : printings[n]? = some p →
      sink.refusal? (sink.offered ++ Printing.lines (printings.take (n + 1))) = some cause →
      after.scope.globals = p.scope.globals →
      after.sink.writes = sink.writes ++ Printing.lines (printings.take n) →
      CutOff sink n printings whole (.error ⟨p.context, .writeFailed cause⟩, after)

namespace CutOff

variable {sink : Sink} {n : Nat} {printings more : List Printing}
  {whole outcome : Except Diagnostic Value × State}

/-- What prints nothing is not cut off. -/
theorem silent (result : Except Diagnostic Value) (scope : Scope) (full : Sink) :
    CutOff sink n [] (result, ⟨scope, full⟩) (result, ⟨scope, sink⟩) := by
  have hnever : CutOff sink n [] (result, ⟨scope, full⟩) _ := .never (Nat.zero_le n)
  rwa [Printing.lines, List.map_nil, Sink.appended_nil] at hnever

/-- What is cut off prints no more, whatever would come. -/
theorem before {p : Printing} {cause : Text} {after : State} (hp : printings[n]? = some p)
    (hcause : sink.refusal? (sink.offered ++ Printing.lines (printings.take (n + 1))) = some cause)
    (hglobals : after.scope.globals = p.scope.globals)
    (hwrites : after.sink.writes = sink.writes ++ Printing.lines (printings.take n))
    (more : List Printing) :
    CutOff sink n (printings ++ more) whole (.error ⟨p.context, .writeFailed cause⟩, after) := by
  have hlt := (List.getElem?_eq_some_iff.1 hp).1
  refine .line ?_ ?_ hglobals ?_
  · rwa [List.getElem?_append_left hlt]
  · rwa [List.take_append_of_le_length hlt]
  · rwa [List.take_append_of_le_length (Nat.le_of_lt hlt)]

/-- What has been accepted leaves so much less room. -/
theorem after (hle : printings.length ≤ n)
    (h : CutOff (sink.appended (Printing.lines printings)) (n - printings.length) more whole outcome) :
    CutOff sink n (printings ++ more) whole outcome := by
  cases h with
  | never hmore =>
      rw [Sink.appended_appended, Printing.lines, Printing.lines, ← List.map_append]
      exact .never (by rw [List.length_append]; omega)
  | line hp hcause hglobals hwrites =>
      refine .line ?_ ?_ hglobals ?_
      · rwa [List.getElem?_append_right hle]
      · rw [List.take_append, List.take_of_length_le (Nat.le_succ_of_le hle), Nat.succ_sub hle]
        simpa [Printing.lines, Sink.appended] using hcause
      · rw [hwrites, List.take_append, List.take_of_length_le hle]
        simp [Printing.lines]

end CutOff

/-- A block that is left leaves the global names as they are. -/
theorem Scope.Grows.globals_leave {s s' : Scope} (h : s.enter.Grows s') : s'.leave.globals = s'.globals := by
  cases h with
  | nested _ _ => rfl

theorem Stmt.println_cutOff {n : Nat} (c : Context) (value : Expr) (scope : Scope) {full sink : Sink}
    (hfull : full.Accepts) (h : sink.AcceptsOnly n) :
    CutOff sink n ((Stmt.println c value).printings ⟨scope, full⟩) ((Stmt.println c value).exec ⟨scope, full⟩)
      ((Stmt.println c value).exec ⟨scope, sink⟩) := by
  simp only [Stmt.exec, Stmt.printings]
  cases value.eval scope with
  | mk result s =>
      cases result with
      | error d => exact .silent (.error d) s full
      | ok v =>
          simp only [hfull.offer]
          by_cases hn : 0 < n
          · simp only [h.offer_pos hn]
            exact .never hn
          · obtain rfl : n = 0 := by omega
            obtain ⟨cause, hcause, hoffer⟩ := h.offer_zero v.display.line
            simp only [hoffer]
            exact .line (p := ⟨c, s, v.display.line⟩) rfl hcause rfl (List.append_nil _).symm

mutual

/-- A sink that accepts only so many writes cuts a statement off, and does nothing else. -/
theorem Stmt.exec_cutOff {n : Nat} (stmt : Stmt) (scope : Scope) {full sink : Sink} (hfull : full.Accepts)
    (h : sink.AcceptsOnly n) :
    CutOff sink n (stmt.printings ⟨scope, full⟩) (stmt.exec ⟨scope, full⟩) (stmt.exec ⟨scope, sink⟩) := by
  match stmt with
  | .expr _ value => exact .silent (value.eval scope).1 (value.eval scope).2 full
  | .println c value => exact Stmt.println_cutOff c value scope hfull h
  | .declare c name isMutable init =>
      simp only [Stmt.exec, Stmt.printings]
      split
      · exact .silent _ scope full
      · cases init.eval scope with
        | mk result s =>
            cases result with
            | error d => exact .silent _ s full
            | ok v => exact .silent _ _ full
  | .block _ body =>
      have hbody := Stmt.execFrom_cutOff .nil body scope.enter hfull h
      have hgrows := Stmt.execFrom_grows .nil body ⟨scope.enter, sink⟩
      simp only [Stmt.exec, Stmt.printings, State.withScope]
      generalize Stmt.execFrom .nil body ⟨scope.enter, full⟩ = whole,
        Stmt.execFrom .nil body ⟨scope.enter, sink⟩ = outcome at hbody hgrows ⊢
      cases hbody with
      | never hle =>
          obtain ⟨result, st⟩ := whole
          cases result <;> exact .never hle
      | line hp hcause hglobals hwrites =>
          exact .line hp hcause (hgrows.globals_leave.trans hglobals) hwrites
  | .absent => exact .silent _ scope full
  | .foreign _ _ => exact .silent _ scope full

theorem Stmt.execFrom_cutOff {n : Nat} (v : Value) (program : List Stmt) (scope : Scope) {full sink : Sink}
    (hfull : full.Accepts) (h : sink.AcceptsOnly n) :
    CutOff sink n (Stmt.printingsFrom program ⟨scope, full⟩) (Stmt.execFrom v program ⟨scope, full⟩)
      (Stmt.execFrom v program ⟨scope, sink⟩) := by
  match program with
  | [] => exact .silent (.ok v) scope full
  | stmt :: rest =>
      have hfirst := Stmt.exec_cutOff stmt scope hfull h
      have haccepts : (State.mk scope full).sink.Accepts := hfull
      have hsink := Stmt.sink_of_accepts stmt haccepts
      simp only [Stmt.execFrom, Stmt.printingsFrom]
      generalize stmt.exec ⟨scope, full⟩ = whole, stmt.exec ⟨scope, sink⟩ = outcome at hfirst hsink ⊢
      cases hfirst with
      | never hle =>
          obtain ⟨result, scope', full'⟩ := whole
          cases result with
          | error d => exact .after hle (.silent _ _ _)
          | ok w =>
              have hfull' : full'.Accepts := by
                rw [show full' = _ from hsink]
                exact hfull.appended _
              have hlines : (Printing.lines (stmt.printings ⟨scope, full⟩)).length ≤ n := by
                simpa [Printing.lines] using hle
              have hroom := h.appended hlines
              rw [Printing.lines, List.length_map] at hroom
              exact .after hle (Stmt.execFrom_cutOff w rest scope' hfull' hroom)
      | line hp hcause hglobals hwrites => exact .before hp hcause hglobals hwrites _

end

/-! ## Sources -/

/-- The interpreter with another sink. -/
def Interpreter.withSink (it : Interpreter) (sink : Sink) : Interpreter :=
  { it with state := ⟨it.state.scope, sink⟩ }

/-- A sink that accepts `n` writes and no more, beside one that accepts everything. If no more than `n` lines
are printed, then the results, the names and the output are the same. Otherwise the output is that of the
first `n` lines, and the run fails where the next line is printed, with the global names as they are at that
moment; the reason says why the line was refused. -/
theorem refusing_sink_cuts_run_off (it : Interpreter) (source text : Text) {full sink : Sink} {n : Nat}
    (hfull : full.Accepts) (hsink : sink.AcceptsOnly n) :
    let printings := (it.withSink full).printings source text
    let whole := (it.withSink full).run source text
    let cut := (it.withSink sink).run source text
    whole.2.state.sink.writes = full.writes ++ Printing.lines printings ∧
    (printings.length ≤ n →
      cut.1 = whole.1 ∧ cut.2.state.scope = whole.2.state.scope ∧
        cut.2.state.sink.writes = sink.writes ++ Printing.lines printings) ∧
    (n < printings.length →
      ∃ p cause d, printings[n]? = some p ∧
        sink.refusal? (sink.offered ++ Printing.lines (printings.take (n + 1))) = some cause ∧
        cut.1 = .error d ∧ d.context = p.context ∧ d.fault.cls = .runtime ∧
        d.fault.reason = Text.ofString "Failed to write output: " ++ cause ∧
        cut.2.state.sink.writes = sink.writes ++ Printing.lines (printings.take n) ∧
        cut.2.globals = p.scope.globals) := by
  simp only [Interpreter.printings, Interpreter.run, Interpreter.withSink, Interpreter.globals]
  cases parse source it.mode text with
  | error d => simp [Printing.lines]
  | ok program =>
      have haccepts : (State.mk it.state.scope full).sink.Accepts := hfull
      have hwrites := Stmt.sink_of_accepts_from .nil program haccepts
      have hcut := Stmt.execFrom_cutOff .nil program it.state.scope hfull hsink
      simp only [Stmt.execAll]
      generalize Stmt.execFrom .nil program ⟨it.state.scope, full⟩ = whole,
        Stmt.execFrom .nil program ⟨it.state.scope, sink⟩ = cut at hwrites hcut ⊢
      obtain ⟨result, scope, sink'⟩ := whole
      obtain rfl : sink' = _ := hwrites
      cases hcut with
      | never hle =>
          refine ⟨?_, fun _ => ?_, fun hlt => absurd hle (Nat.not_le_of_lt hlt)⟩
          · cases result <;> rfl
          · cases result <;> exact ⟨rfl, rfl, rfl⟩
      | @line p cause after hp hcause hglobals hwrites =>
          have hlt := (List.getElem?_eq_some_iff.1 hp).1
          refine ⟨?_, fun hle => absurd hle (Nat.not_le_of_lt hlt), fun _ => ?_⟩
          · cases result <;> rfl
          · exact ⟨p, cause, _, hp, hcause, rfl, rfl, rfl, rfl, hwrites, hglobals⟩

/-- Three lines are printed, the second of them in a block between two assignments. With room for one line
the run ends there, and the name has the value of the first assignment. -/
theorem refusing_sink_cuts_run_off_block :
    let text := Text.ofString
      "let mut x = nil;\n\x7b println x; x = true;\nprintln x; x = false; \x7d\nprintln x;"
    let it := Interpreter.new .file .unlimited
    let printings := (it.withSink .unlimited).printings [] text
    let cut := (it.withSink (.limited 1)).run [] text
    1 < printings.length ∧ ∃ p d, printings[1]? = some p ∧ p.context.line = 3 ∧
      cut.1 = .error d ∧ d.context = p.context ∧
      d.fault.reason = Text.ofString "Failed to write output: " ++ Sink.closed ∧
      cut.2.state.sink.writes = [Text.ofString "()\n"] ∧ cut.2.globals = p.scope.globals ∧
      (cut.2.globals.get? (Text.ofString "x")).map (·.value.display) = some (Text.ofString "true") := by
  intro text it printings cut
  have hprinted : printings.map (fun p => (p.context.line, p.line)) =
      [(2, Text.ofString "()\n"), (3, Text.ofString "true\n"), (4, Text.ofString "false\n")] := by
    decide +kernel
  have hlength : printings.length = 3 := by simpa using congrArg List.length hprinted
  have hvalue : (cut.2.globals.get? (Text.ofString "x")).map (·.value.display) =
      some (Text.ofString "true") := by decide +kernel
  obtain ⟨p, cause, d, hp, hcause, hfails, hcontext, -, hreason, hwrites, hglobals⟩ :=
    (refusing_sink_cuts_run_off it [] text Sink.unlimited_accepts (Sink.limited_acceptsOnly 1)).2.2
      (by rw [hlength]; decide)
  have hline : (p.context.line, p.line) = (3, Text.ofString "true\n") := by
    have hsecond := congrArg (·[1]?) hprinted
    rw [List.getElem?_map, hp] at hsecond
    exact Option.some.inj hsecond
  have hfirst : Printing.lines (printings.take 1) = [Text.ofString "()\n"] := by decide +kernel
  have hclosed : cause = Sink.closed := by
    simp only [Sink.limited] at hcause
    split at hcause
    · cases hcause
    · exact (Option.some.inj hcause).symm
  refine ⟨by rw [hlength]; decide, p, d, hp, (Prod.mk.inj hline).1, hfails, hcontext, ?_, ?_, hglobals,
    hvalue⟩
  · rw [hreason, hclosed]
  · rw [hwrites, hfirst]
    rfl

end LetScript
