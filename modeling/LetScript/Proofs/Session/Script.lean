import LetScript.Proofs.Execution.Replay
import LetScript.Proofs.Session.Lines
import LetScript.Proofs.Syntax.Sentences

/-!
# Sessions and scripts

Statements that are entered one by one do what they do in a script. A session differs from a script only in
its echoes, and in the place to which a diagnostic refers.
-/

namespace LetScript

open Grammar

/-! ## Steps -/

/-- What a step has printed. -/
def Step.printed (step : Step) : List Text := step.after.sink.writes.drop step.before.sink.writes.length

/-- The statement with so many statements before it is the one that fails. -/
def Stmt.FailsAt (program : List Stmt) (st : State) (n : Nat) (d : Diagnostic) : Prop :=
  ∃ before stmt after v st', program = before ++ stmt :: after ∧ before.length = n ∧
    Stmt.execAll before st = (.ok v, st') ∧ (stmt.exec st').1 = .error d

/-- Only expression statements have values other than nil. -/
theorem Stmt.exec_value {stmt : Stmt} {st st' : State} {v : Value} (h : stmt.exec st = (.ok v, st'))
    (hstmt : ∀ c e, stmt ≠ .expr c e) : v = .nil := by
  cases stmt with
  | expr c e => exact absurd rfl (hstmt c e)
  | println c e =>
      simp only [Stmt.exec] at h
      split at h
      · cases h
      · split at h <;> cases h
        rfl
  | declare c name isMutable e =>
      simp only [Stmt.exec] at h
      split at h
      · cases h
      · split at h <;> cases h
        rfl
  | block c body =>
      simp only [Stmt.exec] at h
      split at h <;> cases h
      rfl
  | absent => cases h
  | foreign => cases h

namespace Session

/-! ## One sentence -/

/-- The line on which a value is echoed, unless it is nil. -/
def echoes (settings : Settings) (v : Value) : List Text :=
  if v.isNil then [] else [((Session.new settings .unlimited).echo v).line]

/-- The line on which the value of an expression statement is echoed, unless it is nil. -/
def echoOf (settings : Settings) : Stmt → Except Diagnostic Value → List Text
  | .expr _ _, .ok v => echoes settings v
  | _, _ => []

theorem echoOf_eq {settings : Settings} {stmt : Stmt} {st st' : State} {v : Value}
    (h : stmt.exec st = (.ok v, st')) : echoOf settings stmt (.ok v) = echoes settings v := by
  cases stmt with
  | expr c e => rfl
  | _ =>
      cases Stmt.exec_value h (by simp)
      rfl

/-- A session in which nothing is unfinished. -/
def idle (settings : Settings) (scope : Scope) (out errors : Sink) : Session :=
  ⟨⟨.prompt, ⟨scope, out⟩, false⟩, settings, errors, [], .terminal⟩

theorem isCommand_sentence {source : Text} (s : Sentence source) : isCommand s.text = false := by
  rw [← Bool.not_eq_true]
  intro hcommand
  obtain ⟨blanks, gs, hdecode, hblanks⟩ := Lexical.exists_decode_eq_of_trim (of_decide_eq_true hcommand)
  obtain ⟨d, hd⟩ := Lexical.scanFrom_colon source hblanks 1 0 gs
  have hscan := s.scan_text
  rw [Token.scan, hdecode, hd] at hscan
  cases hscan

section

variable {source : Text} {s : Sentence source} {settings : Settings} {scope after : Scope}
  {out errors : Sink} {printed : List Text}

/-- A sentence is no command and no unfinished statement, so it has its run. -/
theorem feed_sentence (s : Sentence source) (settings : Settings) (scope : Scope) (out errors : Sink) :
    (idle settings scope out errors).feed s.text =
      (false, (idle settings scope out errors).afterRun s.text.line) := by
  rw [feed_of_not_command fun _ => isCommand_sentence s]
  rcases (idle settings scope out errors).evaluate_cases s.text.line with ⟨d, hparse, -, -⟩ | heval
  · rw [idle, s.parse_line] at hparse
    cases hparse
  · exact heval

theorem feed_of_ok {v : Value} (h : s.stmt.Does scope (.ok v) after printed) (hout : out.Accepts) :
    (idle settings scope out errors).feed s.text =
      (false, idle settings after (out.appended (printed ++ echoes settings v)) errors) := by
  have hexec := h ⟨sourceOrDefault settings.sourceName, 0⟩ out hout
  rw [feed_sentence]
  simp only [idle, afterRun, Interpreter.run, s.parse_line, Stmt.execAll, Stmt.execFrom, hexec, relocated_ok,
    ↓reduceIte, Interpreter.reset]
  by_cases hv : v.isNil
  · simp [echoes, hv]
  · simp only [echoes, hv, Bool.false_eq_true, ↓reduceIte]
    rw [(hout.appended printed).write, Sink.appended_appended]
    rfl

theorem feed_of_error {d : Diagnostic} (h : s.stmt.Does scope (.error d) after printed)
    (hout : out.Accepts) :
    (idle settings scope out errors).feed s.text =
      (false, idle settings after (out.appended printed)
        (errors.write (d.relocate ⟨sourceOrDefault settings.sourceName, 0⟩).message.line)) := by
  have hexec := h ⟨sourceOrDefault settings.sourceName, 0⟩ out hout
  rw [feed_sentence]
  simp only [idle, afterRun, Interpreter.run, s.parse_line, Stmt.execAll, Stmt.execFrom, hexec,
    relocated_error, Interpreter.reset]

/-- A sentence that fails in a script with so many lines above it fails in a session as well, and the
report refers to the line of the sentence itself. -/
theorem feed_failing (settings : Settings) (errors : Sink) {k : Nat} {st st' : State} {d : Diagnostic}
    (hsink : st.sink.Accepts) (hout : out.Accepts)
    (h : (s.stmt.relocate ⟨source, k⟩).exec st = (.error d, st')) :
    ∃ out', (idle settings st.scope out errors).feed s.text =
      (false, idle settings st'.scope out'
        (errors.write (d.relocate ⟨sourceOrDefault settings.sourceName, -k⟩).message.line)) := by
  obtain ⟨result, after, printed, hdoes⟩ := s.spells.does st.scope
  have hplaced := hdoes ⟨source, k⟩ st.sink hsink
  rw [h] at hplaced
  cases result with
  | ok v => cases hplaced
  | error d₀ =>
      cases hplaced
      refine ⟨out.appended printed, ?_⟩
      rw [feed_of_error hdoes hout, Diagnostic.relocate_relocate, Int.add_right_neg]

/-! ## Many sentences -/

/-- The output of a session: what the steps have printed and, after each of them, its echo. -/
def transcript (settings : Settings) (program : List Stmt) (steps : List Step) : List Text :=
  (program.zip steps).flatMap fun p => p.2.printed ++ echoOf settings p.1 p.2.result

theorem feedAll_cons (session : Session) (line : Text) (more : List Text) :
    session.feedAll (line :: more) = (session.feed line).2.feedAll more := rfl

theorem feedAll_append (session : Session) (before after : List Text) :
    session.feedAll (before ++ after) = (session.feedAll before).feedAll after := List.foldl_append

theorem answers_append (session : Session) (before after : List Text) :
    session.answers (before ++ after) =
      session.answers before ++ (session.feedAll before).answers after := by
  induction before generalizing session with
  | nil => rfl
  | cons line before ih =>
      rw [List.cons_append, answers, ih, answers, feedAll_cons]
      rfl

/-- Sentences whose statements succeed one after the other. -/
theorem feedAll_of_ok {source : Text} (settings : Settings) (errors : Sink)
    {sentences : List (Sentence source)} {k : Nat} {scope : Scope} {sink out : Sink} {v w : Value}
    {st : State} (hsink : sink.Accepts) (hout : out.Accepts)
    (h : Stmt.execFrom v (Sentence.programFrom k sentences) ⟨scope, sink⟩ = (.ok w, st)) :
    let steps := Stmt.trace (Sentence.programFrom k sentences) ⟨scope, sink⟩
    (idle settings scope out errors).answers (sentences.map Sentence.text) =
        List.replicate sentences.length false ∧
      (idle settings scope out errors).feedAll (sentences.map Sentence.text) =
        idle settings st.scope (out.appended (transcript settings (Sentence.programFrom k sentences) steps))
          errors ∧
      st.sink = sink.appended (steps.flatMap Step.printed) := by
  intro steps
  -- session and script go from sentence to sentence with the same scope; only the outputs differ
  induction sentences generalizing k scope sink out v with
  | nil =>
      cases h
      refine ⟨rfl, ?_, ?_⟩
      · simp [feedAll, transcript, Sentence.programFrom]
      · simp [steps, Sentence.programFrom, Stmt.trace]
  | cons s rest ih =>
      obtain ⟨result, middle, printed, hdoes⟩ := s.spells.does scope
      have hexec := hdoes ⟨source, k⟩ sink hsink
      rw [Sentence.programFrom, Stmt.execFrom, hexec] at h
      cases result with
      | error d => cases h
      | ok v' =>
          have hfeed : (idle settings scope out errors).feed s.text = _ := feed_of_ok hdoes hout
          obtain ⟨hanswers, hsession, hscript⟩ := ih (hsink.appended printed)
            (hout.appended (printed ++ echoes settings v')) h
          have hsteps : steps = ⟨.ok v', ⟨scope, sink⟩, ⟨middle, sink.appended printed⟩⟩ ::
              Stmt.trace (Sentence.programFrom (k + s.height) rest) ⟨middle, sink.appended printed⟩ := by
            simp only [steps, Sentence.programFrom, Stmt.trace, hexec, relocated_ok]
          have hprinted :
              Step.printed ⟨.ok v', ⟨scope, sink⟩, ⟨middle, sink.appended printed⟩⟩ = printed := by
            simp [Step.printed]
          refine ⟨?_, ?_, ?_⟩
          · rw [List.map_cons, answers, hfeed, hanswers]
            rfl
          · rw [List.map_cons, feedAll_cons, hfeed, hsession, hsteps, Sink.appended_appended]
            simp only [transcript, Sentence.programFrom, List.zip_cons_cons, List.flatMap_cons, hprinted]
            rw [echoOf_eq hexec]
          · rw [hscript, hsteps, List.flatMap_cons, hprinted, Sink.appended_appended]

/-- A script of sentences that fails does so at one of them, in the state after those before it. -/
theorem exists_failing {source : Text} {sentences : List (Sentence source)} {k : Nat} {v : Value}
    {st st' : State} {d : Diagnostic}
    (h : Stmt.execFrom v (Sentence.programFrom k sentences) st = (.error d, st')) :
    ∃ before s after w middle, sentences = before ++ s :: after ∧
      Stmt.execFrom v (Sentence.programFrom k before) st = (.ok w, middle) ∧
      (s.stmt.relocate ⟨source, ↑(k + Sentence.heights before)⟩).exec middle = (.error d, st') := by
  induction sentences generalizing k v st with
  | nil => cases h
  | cons s rest ih =>
      rw [Sentence.programFrom, Stmt.execFrom] at h
      cases hexec : (s.stmt.relocate ⟨source, k⟩).exec st with
      | mk result middle =>
          rw [hexec] at h
          cases result with
          | error d' =>
              cases h
              exact ⟨[], s, rest, v, st, rfl, rfl, hexec⟩
          | ok v' =>
              obtain ⟨before, s', after, w, middle', rfl, hbefore, hfails⟩ := ih h
              refine ⟨s :: before, s', after, w, middle', rfl, ?_, ?_⟩
              · rw [Sentence.programFrom, Stmt.execFrom, hexec]
                exact hbefore
              · rw [← hfails]
                simp [Sentence.heights, Nat.add_assoc]

/-- Sentences one of which fails: those before it succeed, and it is the one that is reported. -/
theorem feedAll_of_error {source : Text} (settings : Settings) (errors : Sink)
    {sentences : List (Sentence source)} {k : Nat} {scope : Scope} {sink out : Sink} {v : Value}
    {d : Diagnostic} {st : State} (hsink : sink.Accepts) (hout : out.Accepts)
    (h : Stmt.execFrom v (Sentence.programFrom k sentences) ⟨scope, sink⟩ = (.error d, st)) :
    ∃ before s after, sentences = before ++ s :: after ∧
      (∃ w middle, Stmt.execFrom v (Sentence.programFrom k before) ⟨scope, sink⟩ = (.ok w, middle) ∧
        ((s.stmt.relocate ⟨source, ↑(k + Sentence.heights before)⟩).exec middle).1 = .error d) ∧
      (idle settings scope out errors).answers (before.map Sentence.text ++ [s.text]) =
        List.replicate (before.length + 1) false ∧
      ((idle settings scope out errors).feedAll (before.map Sentence.text)).errors = errors ∧
      ∃ out', (idle settings scope out errors).feedAll (before.map Sentence.text ++ [s.text]) =
        idle settings st.scope out' (errors.write
          (d.relocate
            ⟨sourceOrDefault settings.sourceName, -↑(k + Sentence.heights before)⟩).message.line) := by
  obtain ⟨before, s, after, w, middle, rfl, hbefore, hfails⟩ := exists_failing h
  obtain ⟨hanswers, hsession, hscript⟩ := feedAll_of_ok settings errors hsink hout hbefore
  have hmiddle : middle.sink.Accepts := by
    rw [hscript]
    exact hsink.appended _
  obtain ⟨out', hfeed⟩ := feed_failing settings errors hmiddle (hout.appended _) hfails
  refine ⟨before, s, after, rfl, ⟨w, middle, hbefore, congrArg Prod.fst hfails⟩, ?_, ?_, out', ?_⟩
  · rw [answers_append, hsession, hanswers, answers, hfeed, answers, List.replicate_succ']
  · rw [hsession]
    rfl
  · rw [feedAll_append, hsession, feedAll_cons, hfeed]
    rfl

end

end Session

/-! ## Scripts -/

section

variable {it : Interpreter} {source text : Text} {program : List Stmt}

theorem Interpreter.execAll_of_run_ok (hparse : parse source it.mode text = .ok program) {v : Value}
    (h : (it.run source text).1 = .ok v) :
    ∃ w, Stmt.execAll program it.state = (.ok w, (it.run source text).2.state) := by
  simp only [run, hparse] at h ⊢
  cases hexec : Stmt.execAll program it.state with
  | mk result st =>
      rw [hexec] at h
      cases result with
      | error d => cases h
      | ok w => exact ⟨w, rfl⟩

theorem Interpreter.execAll_of_run_error (hparse : parse source it.mode text = .ok program)
    {d : Diagnostic} (h : (it.run source text).1 = .error d) :
    Stmt.execAll program it.state = (.error d, (it.run source text).2.state) := by
  simp only [run, hparse] at h ⊢
  cases hexec : Stmt.execAll program it.state with
  | mk result st =>
      rw [hexec] at h
      cases result with
      | error d' => cases h; rfl
      | ok w => cases h

end

/-- A session in which texts of one statement each are entered, and a script of the same texts. If the script
succeeds, then so does every line, the global names are the same, and the output of the session is that of
the script with an echo after each expression statement that has a value. If the script fails at one of the
texts, then the lines before it report nothing and this one reports the same fault at its own place, and the
global names are the same after it. -/
theorem session_agrees_with_script (source : Text) (settings : Settings) {texts : List Text}
    (h : ∀ text ∈ texts, ∃ stmt, parse source .file text = .ok [stmt]) :
    let script := (Interpreter.new .file .unlimited).run source (Text.join [Text.newline] texts)
    let session := Session.new settings .unlimited
    (∀ v, script.1 = .ok v →
      session.answers texts = List.replicate texts.length false ∧
      (session.feedAll texts).errors.writes = [] ∧
      (session.feedAll texts).interpreter.globals = script.2.globals ∧
      ∃ program, parse source .file (Text.join [Text.newline] texts) = .ok program ∧
        let steps := Stmt.trace program (.initial .unlimited)
        script.2.state.sink.writes = steps.flatMap Step.printed ∧
        (session.feedAll texts).sink.writes =
          (program.zip steps).flatMap fun p => p.2.printed ++ Session.echoOf settings p.1 p.2.result) ∧
    (∀ d, script.1 = .error d →
      ∃ before text after, texts = before ++ text :: after ∧
        (∃ program, parse source .file (Text.join [Text.newline] texts) = .ok program ∧
          Stmt.FailsAt program (.initial .unlimited) before.length d) ∧
        session.answers (before ++ [text]) = List.replicate (before.length + 1) false ∧
        (session.feedAll before).errors.writes = [] ∧
        (session.feedAll (before ++ [text])).interpreter.globals = script.2.globals ∧
        (session.feedAll (before ++ [text])).errors.writes =
          [(d.relocate ⟨sourceOrDefault settings.sourceName,
            -((before.flatMap Text.line).count Text.newline : Int)⟩).message.line]) := by
  obtain ⟨sentences, rfl⟩ := Sentence.exists_of_parse_all h
  have hparse := Sentence.parse_join sentences
  intro script session
  have haccepts := Sink.unlimited_accepts
  constructor
  · intro v hv
    obtain ⟨w, hexec⟩ := Interpreter.execAll_of_run_ok hparse hv
    obtain ⟨hanswers, hsession, hscript⟩ :=
      Session.feedAll_of_ok settings .unlimited haccepts haccepts hexec
    have hfeeds : session.feedAll (sentences.map Sentence.text) = _ := hsession
    refine ⟨?_, by rw [hfeeds]; rfl, ?_, _, hparse, ?_, by rw [hfeeds]; rfl⟩
    · rw [List.length_map]
      exact hanswers
    · rw [hfeeds]
      rfl
    · exact congrArg Sink.writes hscript
  · intro d hd
    have hexec := Interpreter.execAll_of_run_error hparse hd
    obtain ⟨before, s, after, rfl, ⟨w, middle, hbefore, hfails⟩, hanswers, herrors, out, hlast⟩ :=
      Session.feedAll_of_error settings .unlimited haccepts haccepts hexec
    have hfeeds : session.feedAll (before.map Sentence.text ++ [s.text]) = _ := hlast
    refine ⟨before.map Sentence.text, s.text, after.map Sentence.text, by simp, ?_, ?_, ?_, ?_, ?_⟩
    · refine ⟨_, hparse, Sentence.programFrom 0 before, _, _, w, middle,
        Sentence.programFrom_append 0 before (s :: after), ?_, hbefore, hfails⟩
      rw [Sentence.length_programFrom, List.length_map]
    · rw [List.length_map]
      exact hanswers
    · exact congrArg Sink.writes herrors
    · rw [hfeeds]
      rfl
    · rw [hfeeds, ← Sentence.heights_eq_count, Nat.zero_add]
      rfl

/-- A block that fails on its second line, after a text that ends with a comment and a line feed. -/
theorem session_agrees_with_script_block :
    let texts := [Text.ofString "let mut x = nil; // none\n", Text.ofString "\x7bprintln x;\nx = y;\x7d"]
    let script := (Interpreter.new .file .unlimited).run [] (Text.join [Text.newline] texts)
    let session := Session.new .default .unlimited
    (∀ text ∈ texts, ∃ stmt, parse [] .file text = .ok [stmt]) ∧
      ∃ d, script.1 = .error d ∧ d.fault.reason = Text.ofString "Name 'y' is not defined" ∧
        ∃ before text after, texts = before ++ text :: after ∧
          (session.feedAll before).errors.writes = [] ∧
          (session.feedAll (before ++ [text])).interpreter.globals = script.2.globals ∧
          (session.feedAll (before ++ [text])).errors.writes =
            [(d.relocate ⟨sourceOrDefault Settings.default.sourceName,
              -((before.flatMap Text.line).count Text.newline : Int)⟩).message.line] := by
  intro texts script session
  have hlengths : ∀ text ∈ texts, (parse [] .file text).toOption.map List.length = some 1 := by decide +kernel
  have hone : ∀ text ∈ texts, ∃ stmt, parse [] .file text = .ok [stmt] := by
    intro text ht
    have hlength := hlengths text ht
    cases hparse : parse [] .file text with
    | error d =>
        rw [hparse] at hlength
        cases hlength
    | ok program =>
        rw [hparse] at hlength
        obtain ⟨stmt, rfl⟩ := List.length_eq_one_iff.1 (Option.some.inj hlength)
        exact ⟨stmt, rfl⟩
  have hunbound : reason? script.1 = some (Text.ofString "Name 'y' is not defined", false) := by
    decide +kernel
  obtain ⟨d, hfails, hreason, -⟩ := exists_of_reason? hunbound
  obtain ⟨before, text, after, htexts, -, -, hsilent, hglobals, hreport⟩ :=
    (session_agrees_with_script [] .default hone).2 d hfails
  exact ⟨hone, d, hfails, hreason, before, text, after, htexts, hsilent, hglobals, hreport⟩

end LetScript
