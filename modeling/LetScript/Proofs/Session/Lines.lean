import LetScript.Proofs.Execution.Faults
import LetScript.Session.Basic

/-!
# Sessions and their lines

A session runs what has been entered again and again until it can be read to its end. Nothing is executed
before that, so all the lines of a statement together amount to one run.
-/

namespace LetScript

/-! ## Runs and the error flag -/

namespace Interpreter

/-- The interpreter with its error flag set. -/
def flag (it : Interpreter) : Interpreter := { it with hadError := true }

/-- A run does not depend on the error flag. -/
theorem run_flag (it : Interpreter) (source text : Text) :
    (it.flag.run source text).1 = (it.run source text).1 ∧
      (it.flag.run source text).2.reset = (it.run source text).2.reset := by
  simp only [run, flag]
  split
  · exact ⟨rfl, rfl⟩
  · split <;> exact ⟨rfl, rfl⟩

theorem reset_state (it : Interpreter) : it.reset.state = it.state := rfl

theorem run_mode (it : Interpreter) (source text : Text) :
    (it.run source text).2.mode = it.mode := by
  simp only [run]
  split
  · rfl
  · split <;> rfl

end Interpreter

namespace Session

/-! ## One line -/

/-- The session while a statement is unfinished. -/
def pending (s : Session) (entered : Text) : Session :=
  { s with interpreter := s.interpreter.flag, buffer := entered }

/-- The session after one run of a text: a failure is reported on one line, and a value other than nil is
echoed on one. Nothing is unfinished, and the error flag is clear. -/
def afterRun (s : Session) (text : Text) : Session :=
  match s.interpreter.run s.settings.sourceName text with
  | (.error d, it) =>
    { s with interpreter := it.reset, errors := s.errors.write d.message.line, buffer := [] }
  | (.ok v, it) =>
    let sink := if v.isNil then it.state.sink else it.state.sink.write (s.echo v).line
    { s with interpreter := { it.reset with state := ⟨it.state.scope, sink⟩ }, buffer := [] }

/-- A text that has been entered cannot be read to its end, or has its one run. -/
theorem evaluate_cases (s : Session) (entered : Text) :
    (∃ d, parse s.settings.sourceName s.interpreter.mode entered = .error d ∧ d.fault.incomplete ∧
      s.evaluate entered = (true, s.pending entered)) ∨
    s.evaluate entered = (false, s.afterRun entered) := by
  cases hrun : s.interpreter.run s.settings.sourceName entered with
  | mk result it =>
      cases result with
      | error d =>
          by_cases hd : d.fault.incomplete
          · have hnothing := Interpreter.run_of_incomplete (by rw [hrun]) hd
            rw [hrun] at hnothing
            obtain ⟨hparse, rfl⟩ := hnothing
            refine Or.inl ⟨d, hparse, hd, ?_⟩
            simp [evaluate, hrun, conclude, hd, pending, Interpreter.flag]
          · refine Or.inr ?_
            simp [evaluate, afterRun, hrun, conclude, hd, abort, report]
      | ok v =>
          refine Or.inr ?_
          by_cases hv : v.isNil
          · simp [evaluate, afterRun, hrun, conclude, hv, abort, Interpreter.reset]
          · simp [evaluate, afterRun, hrun, conclude, hv, abort, print, Interpreter.reset, echo]

/-- What is pending does not change what a run amounts to. -/
theorem afterRun_pending (s : Session) (entered text : Text) :
    (s.pending entered).afterRun text = s.afterRun text := by
  obtain ⟨hresult, hreset⟩ := s.interpreter.run_flag s.settings.sourceName text
  simp only [afterRun, pending]
  cases hrun : s.interpreter.run s.settings.sourceName text with
  | mk result it =>
      cases hflag : s.interpreter.flag.run s.settings.sourceName text with
      | mk result' it' =>
          rw [hrun, hflag] at hresult hreset
          have hstate : it'.reset.state = it.reset.state := congrArg Interpreter.state hreset
          rw [Interpreter.reset_state, Interpreter.reset_state] at hstate
          cases hresult
          cases result with
          | error d => simp [hreset]
          | ok v => simp [hreset, hstate, echo]

theorem feed_of_not_command {s : Session} {line : Text} (h : s.buffer = [] → isCommand line = false) :
    s.feed line = s.evaluate (s.buffer ++ line.line) := by
  rw [feed, if_neg]
  rintro ⟨hbuffer, hcommand⟩
  rw [h hbuffer] at hcommand
  cases hcommand

theorem feed_of_command {s : Session} {line : Text} (hbuffer : s.buffer = []) (h : isCommand line) :
    s.feed line = (false, s.command (Text.trim line)) := by
  rw [feed, if_pos ⟨hbuffer, h⟩]

/-- What a line does: it is a command, or it is added to what is pending, which stays so or has its
one run. -/
theorem feed_cases (s : Session) (line : Text) :
    (s.buffer = [] ∧ isCommand line ∧ s.feed line = (false, s.command (Text.trim line))) ∨
    (∃ d, parse s.settings.sourceName s.interpreter.mode (s.buffer ++ line.line) = .error d ∧
      d.fault.incomplete ∧ s.feed line = (true, s.pending (s.buffer ++ line.line))) ∨
    s.feed line = (false, s.afterRun (s.buffer ++ line.line)) := by
  by_cases h : s.buffer = [] ∧ isCommand line
  · exact Or.inl ⟨h.1, h.2, feed_of_command h.1 h.2⟩
  · refine Or.inr ?_
    rw [feed, if_neg h]
    exact s.evaluate_cases _

/-! ## The lines of a statement -/

/-- Which of the lines leave a statement unfinished, when they are entered in order. -/
def answers : Session → List Text → List Bool
  | _, [] => []
  | s, line :: rest => (s.feed line).1 :: (s.feed line).2.answers rest

/-- Lines that leave a statement unfinished up to the last of them have one run together. -/
theorem feedAll_eq_afterRun {s : Session} {line : Text} {more : List Text}
    (hline : s.buffer = [] → isCommand line = false)
    (h : s.answers (line :: more) = List.replicate more.length true ++ [false]) :
    s.feedAll (line :: more) = s.afterRun (s.buffer ++ (line :: more).flatMap Text.line) := by
  induction more generalizing s line with
  | nil =>
      have hfalse : (s.feed line).1 = false := by simpa [answers] using h
      rw [feed_of_not_command hline] at hfalse
      rcases s.evaluate_cases (s.buffer ++ line.line) with ⟨d, -, -, heval⟩ | heval
      · rw [heval] at hfalse
        cases hfalse
      · simp [feedAll, feed_of_not_command hline, heval]
  | cons next more ih =>
      obtain ⟨htrue, hrest⟩ : (s.feed line).1 = true ∧
          (s.feed line).2.answers (next :: more) = List.replicate more.length true ++ [false] := by
        simpa [answers, List.replicate_succ] using h
      rw [feed_of_not_command hline] at htrue
      rcases s.evaluate_cases (s.buffer ++ line.line) with ⟨d, -, -, heval⟩ | heval
      · rw [feed_of_not_command hline, heval] at hrest
        have hne : (s.pending (s.buffer ++ line.line)).buffer ≠ [] := by simp [pending, Text.line]
        have hfeedAll : s.feedAll (line :: next :: more) =
            (s.pending (s.buffer ++ line.line)).feedAll (next :: more) := by
          rw [feedAll, List.foldl_cons, feed_of_not_command hline, heval]
          rfl
        rw [hfeedAll, ih (fun hnil => absurd hnil hne) hrest, afterRun_pending]
        simp [pending]
      · rw [heval] at htrue
        cases htrue

/-! ## Commands -/

/-- All that a command has to leave alone. -/
structure Unmoved (s s' : Session) : Prop where
  settings : s'.settings = s.settings
  mode : s'.interpreter.mode = s.interpreter.mode
  scope : s'.interpreter.state.scope = s.interpreter.state.scope
  hadError : s'.interpreter.hadError = s.interpreter.hadError
  buffer : s'.buffer = s.buffer

namespace Unmoved

theorem refl (s : Session) : s.Unmoved s := ⟨rfl, rfl, rfl, rfl, rfl⟩

theorem trans {s s' s'' : Session} (h : s.Unmoved s') (h' : s'.Unmoved s'') : s.Unmoved s'' :=
  ⟨h'.settings.trans h.settings, h'.mode.trans h.mode, h'.scope.trans h.scope,
    h'.hadError.trans h.hadError, h'.buffer.trans h.buffer⟩

end Unmoved

theorem print_unmoved (s : Session) (line : Text) : s.Unmoved (s.print line) := ⟨rfl, rfl, rfl, rfl, rfl⟩

theorem report_unmoved (s : Session) (text : Text) : s.Unmoved (s.report text) := ⟨rfl, rfl, rfl, rfl, rfl⟩

theorem showTree_unmoved (s : Session) (source : Text) : s.Unmoved (s.showTree source) := by
  unfold showTree
  split
  · exact s.report_unmoved _
  · exact .refl s
  · exact s.print_unmoved _

theorem foldl_unmoved {α : Type} {step : Session → α → Session}
    (h : ∀ (s : Session) (a : α), s.Unmoved (step s a))
    (items : List α) (s : Session) : s.Unmoved (items.foldl step s) := by
  induction items generalizing s with
  | nil => exact .refl s
  | cons item items ih => exact (h s item).trans (ih _)

theorem listNames_unmoved (s : Session) : s.Unmoved s.listNames :=
  foldl_unmoved (fun s' _ => s'.print_unmoved _) _ s

theorem command_unmoved (s : Session) (line : Text) : s.Unmoved (s.command line) := by
  unfold command
  split
  split
  · exact s.showTree_unmoved _
  · split
    · exact s.listNames_unmoved
    · split
      · exact (s.print_unmoved _).trans (print_unmoved _ _)
      · exact s.report_unmoved _

/-! ## Whole sessions -/

/-- What can be done to a session. -/
inductive Action where
  | feed (line : Text)
  | abort

/-- The session after an action. -/
def Action.perform : Action → Session → Session
  | feed line, s => (s.feed line).2
  | abort, s => s.abort

/-- The session after actions in order. -/
def performAll (actions : List Action) (s : Session) : Session :=
  actions.foldl (fun s action => action.perform s) s

/-- What holds of a session with the given settings at any time. -/
structure Sound (settings : Settings) (s : Session) : Prop where
  settings_eq : s.settings = settings
  mode_eq : s.interpreter.mode = .prompt
  /-- The error flag tells whether a statement is unfinished. -/
  flagged : s.interpreter.hadError = true ↔ s.buffer ≠ []
  /-- An unfinished statement is a number of whole lines. -/
  ended : s.buffer ≠ [] → s.buffer.getLast? = some Text.newline
  /-- An unfinished statement cannot be read to its end. -/
  unfinished : s.buffer ≠ [] →
    ∃ d, parse settings.sourceName .prompt s.buffer = .error d ∧ d.fault.incomplete

theorem sound_of_empty {settings : Settings} {s : Session} (hsettings : s.settings = settings)
    (hmode : s.interpreter.mode = .prompt) (hflag : s.interpreter.hadError = false)
    (hbuffer : s.buffer = []) : s.Sound settings := by
  refine ⟨hsettings, hmode, ?_, fun h => absurd hbuffer h, fun h => absurd hbuffer h⟩
  simp [hflag, hbuffer]

theorem Sound.afterRun {settings : Settings} {s : Session} (h : s.Sound settings) (text : Text) :
    (s.afterRun text).Sound settings := by
  have hmode := s.interpreter.run_mode s.settings.sourceName text
  unfold Session.afterRun
  split
  · rename_i heq
    rw [heq] at hmode
    exact sound_of_empty h.settings_eq (hmode.trans h.mode_eq) rfl rfl
  · rename_i heq
    rw [heq] at hmode
    exact sound_of_empty h.settings_eq (hmode.trans h.mode_eq) rfl rfl

theorem Sound.feed {settings : Settings} {s : Session} (h : s.Sound settings) (line : Text) :
    (s.feed line).2.Sound settings := by
  rcases s.feed_cases line with ⟨hbuffer, -, hfeed⟩ | ⟨d, hparse, hd, hfeed⟩ | hfeed
  · have hunmoved := s.command_unmoved (Text.trim line)
    rw [hfeed]
    refine sound_of_empty (hunmoved.settings.trans h.settings_eq) (hunmoved.mode.trans h.mode_eq) ?_
      (hunmoved.buffer.trans hbuffer)
    rw [hunmoved.hadError]
    simpa [hbuffer] using h.flagged
  · rw [hfeed]
    rw [h.settings_eq, h.mode_eq] at hparse
    refine ⟨h.settings_eq, h.mode_eq, ?_, fun _ => ?_, fun _ => ⟨d, hparse, hd⟩⟩
    · simp [pending, Interpreter.flag, Text.line]
    · simp [pending, Text.line]
  · rw [hfeed]
    exact h.afterRun _

theorem Sound.abort {settings : Settings} {s : Session} (h : s.Sound settings) :
    s.abort.Sound settings :=
  sound_of_empty h.settings_eq h.mode_eq rfl rfl

theorem Sound.performAll {settings : Settings} {s : Session} (h : s.Sound settings)
    (actions : List Action) : (Session.performAll actions s).Sound settings := by
  induction actions generalizing s with
  | nil => exact h
  | cons action actions ih =>
      cases action with
      | feed line => exact ih (h.feed line)
      | abort => exact ih h.abort

/-- A session that has not begun, with its output and the place for its reports. -/
def start (settings : Settings) (sink errors : Sink) : Session :=
  { Session.new settings sink with errors := errors }

theorem start_sound (settings : Settings) (sink errors : Sink) :
    (start settings sink errors).Sound settings :=
  sound_of_empty rfl rfl rfl rfl

/-- Nothing has been bound, printed or reported between two sessions. -/
structure Silent (s s' : Session) : Prop where
  scope : s'.interpreter.state.scope = s.interpreter.state.scope
  sink : s'.sink = s.sink
  errors : s'.errors = s.errors

theorem feed_silent {s : Session} {line : Text} (h : (s.feed line).1 = true) : s.Silent (s.feed line).2 := by
  rcases s.feed_cases line with ⟨-, -, hfeed⟩ | ⟨d, -, -, hfeed⟩ | hfeed
  · rw [hfeed] at h
    cases h
  · rw [hfeed]
    exact ⟨rfl, rfl, rfl⟩
  · rw [hfeed] at h
    cases h

/-- A session never loses, repeats or half-executes what is entered, whatever has been done to it before:
the flag and the pending lines agree; pending lines have had no effect; the lines of a statement have the
effect of one run; and commands, which are recognised when nothing is pending, move nothing. -/
theorem lines_run_exactly_once (settings : Settings) (sink errors : Sink) (actions : List Action) :
    let s := performAll actions (start settings sink errors)
    ((s.interpreter.hadError = true ↔ s.buffer ≠ []) ∧
      (s.buffer ≠ [] → s.buffer.getLast? = some Text.newline ∧
        ∃ d, parse settings.sourceName .prompt s.buffer = .error d ∧ d.fault.incomplete)) ∧
    ((∀ line, (s.feed line).1 = true → s.Silent (s.feed line).2) ∧ s.Silent s.abort) ∧
    (∀ line more, s.buffer = [] → isCommand line = false →
      s.answers (line :: more) = List.replicate more.length true ++ [false] →
      s.feedAll (line :: more) = s.afterRun ((line :: more).flatMap Text.line)) ∧
    (∀ line, isCommand line →
      (s.buffer = [] → (s.feed line).1 = false ∧ s.Unmoved (s.feed line).2) ∧
      (s.buffer ≠ [] → s.feed line = s.evaluate (s.buffer ++ line.line))) := by
  intro s
  have hsound : s.Sound settings := (start_sound settings sink errors).performAll actions
  refine ⟨⟨hsound.flagged, fun h => ⟨hsound.ended h, hsound.unfinished h⟩⟩,
    ⟨fun line => feed_silent, ⟨rfl, rfl, rfl⟩⟩, ?_, ?_⟩
  · intro line more hbuffer hline h
    have hrun := feedAll_eq_afterRun (fun _ => hline) h
    rwa [hbuffer, List.nil_append] at hrun
  · intro line hcommand
    refine ⟨fun hbuffer => ?_, fun hbuffer => feed_of_not_command fun hnil => absurd hnil hbuffer⟩
    rw [feed_of_command hbuffer hcommand]
    exact ⟨rfl, s.command_unmoved _⟩

/-- A block on two lines after an unfinished statement has been dropped, a command before it, and what
looks like a command inside of it. The block stores and prints, once. -/
theorem lines_run_exactly_once_block :
    let n := Text.ofString "n"
    let opening := Text.ofString "\x7b let m = n; n = false;"
    let closing := Text.ofString "println m; \x7d"
    (∃ s, s = performAll [.feed (Text.ofString "let mut n = true;"), .feed (Text.ofString "("), .abort]
        (start .default .unlimited .unlimited) ∧
      ((s.feed opening).1 = true ∧ s.Silent (s.feed opening).2) ∧
      (s.answers [opening, closing] = [true, false] ∧
        s.feedAll [opening, closing] = s.afterRun ([opening, closing].flatMap Text.line) ∧
        (s.feedAll [opening, closing]).sink.writes = [Text.ofString "true\n"] ∧
        (s.feedAll [opening, closing]).interpreter.globals.names = [n] ∧
        ((s.feedAll [opening, closing]).interpreter.globals.get? n).map (·.value.display) =
          some (Text.ofString "false")) ∧
      (isCommand (Text.ofString ":env") ∧ s.Unmoved (s.feed (Text.ofString ":env")).2)) ∧
    ∃ s, s = performAll [.feed opening] (start .default .unlimited .unlimited) ∧
      s.buffer = opening.line ∧ s.interpreter.hadError = true ∧
      s.buffer.getLast? = some Text.newline ∧
      s.feed (Text.ofString ":env") = s.evaluate (s.buffer ++ (Text.ofString ":env").line) := by
  intro n opening closing
  have hname : isCommand (Text.ofString ":env") := by decide
  constructor
  · let actions : List Action := [.feed (Text.ofString "let mut n = true;"), .feed (Text.ofString "("), .abort]
    let s := performAll actions (start .default .unlimited .unlimited)
    obtain ⟨-, ⟨hfeed, -⟩, hlines, hcommand⟩ :=
      lines_run_exactly_once .default .unlimited .unlimited actions
    have hmore : (s.feed opening).1 = true := by decide +kernel
    have hanswers : s.answers [opening, closing] = [true, false] := by decide +kernel
    have hprinted : (s.feedAll [opening, closing]).sink.writes = [Text.ofString "true\n"] := by decide +kernel
    have hnames : (s.feedAll [opening, closing]).interpreter.globals.names = [n] := by decide +kernel
    have hstored : ((s.feedAll [opening, closing]).interpreter.globals.get? n).map (·.value.display) =
        some (Text.ofString "false") := by decide +kernel
    exact ⟨s, rfl, ⟨hmore, hfeed _ hmore⟩,
      ⟨hanswers, hlines _ _ rfl (by decide) hanswers, hprinted, hnames, hstored⟩,
      hname, ((hcommand _ hname).1 rfl).2⟩
  · obtain ⟨⟨hflag, hpending⟩, -, -, hcommand⟩ :=
      lines_run_exactly_once .default .unlimited .unlimited [.feed opening]
    have hbuffer : (performAll [.feed opening] (start .default .unlimited .unlimited)).buffer =
        opening.line := by decide +kernel
    have hne : (performAll [.feed opening] (start .default .unlimited .unlimited)).buffer ≠ [] := by
      simp [hbuffer, Text.line]
    exact ⟨_, rfl, hbuffer, hflag.2 hne, (hpending hne).1, (hcommand _ hname).2 hne⟩

end Session

end LetScript
