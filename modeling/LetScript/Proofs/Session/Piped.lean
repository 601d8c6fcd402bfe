import LetScript.Proofs.Session.Script
import LetScript.Proofs.Syntax.LineFeed
import LetScript.Session.Buffered

/-!
# Piped input

A conversation over an input that nobody types enters the lines of the input one by one. Only its end is
special: what is unfinished there is given up, and reported once. Whether the input ends with a line feed
decides how many lines the unfinished statement takes, and nothing else.
-/

namespace LetScript

/-! ## The lines of a text -/

namespace Text

/-- What stands between the line feeds of a text. What follows the last of them is a line, too, unless it is
empty. -/
def lines (t : Text) : List Text :=
  if (splitLines t).2 = [] then (splitLines t).1 else (splitLines t).1 ++ [(splitLines t).2]

theorem splitLines_eq (t : Text) : (splitLines t).1.flatMap line ++ (splitLines t).2 = t := by
  induction t with
  | nil => rfl
  | cons b rest ih =>
      rw [splitLines]
      cases hrest : splitLines rest with
      | mk complete last =>
          rw [hrest] at ih
          dsimp only at ih ⊢
          split
          · rename_i hb
            rw [← ih, hb]
            rfl
          · cases complete with
            | nil => exact congrArg (b :: ·) ih
            | cons first others => exact congrArg (b :: ·) ih

theorem newline_not_mem_splitLines (t : Text) :
    (∀ l ∈ (splitLines t).1, newline ∉ l) ∧ newline ∉ (splitLines t).2 := by
  induction t with
  | nil => simp [splitLines]
  | cons b rest ih =>
      rw [splitLines]
      cases hrest : splitLines rest with
      | mk complete last =>
          rw [hrest] at ih
          obtain ⟨hcomplete, hlast⟩ := ih
          dsimp only
          split
          · exact ⟨List.forall_mem_cons.2 ⟨List.not_mem_nil, hcomplete⟩, hlast⟩
          · rename_i hb
            cases complete with
            | nil => exact ⟨by simp, List.not_mem_cons_of_ne_of_not_mem (Ne.symm hb) hlast⟩
            | cons first others =>
                obtain ⟨hfirst, hothers⟩ := List.forall_mem_cons.1 hcomplete
                have hlonger := List.not_mem_cons_of_ne_of_not_mem (Ne.symm hb) hfirst
                exact ⟨List.forall_mem_cons.2 ⟨hlonger, hothers⟩, hlast⟩

theorem splitLines_append_newline (t : Text) :
    splitLines (t ++ [newline]) = ((splitLines t).1 ++ [(splitLines t).2], []) := by
  induction t with
  | nil => rfl
  | cons b rest ih =>
      rw [List.cons_append, splitLines, ih, splitLines]
      cases splitLines rest with
      | mk complete last =>
          dsimp only
          split
          · rfl
          · cases complete <;> rfl

theorem newline_not_mem_lines {t l : Text} (h : l ∈ t.lines) : newline ∉ l := by
  obtain ⟨hcomplete, hlast⟩ := newline_not_mem_splitLines t
  unfold lines at h
  split at h
  · exact hcomplete l h
  · rcases List.mem_append.1 h with hmem | hmem
    · exact hcomplete l hmem
    · rwa [List.mem_singleton.1 hmem]

theorem lines_append_newline {t : Text} (h : (splitLines t).2 ≠ []) : (t ++ [newline]).lines = t.lines := by
  rw [lines, splitLines_append_newline, lines, if_pos rfl, if_neg h]

/-- Nothing follows the last line feed of a text if there is nothing or a line feed at its end. -/
theorem splitLines_last_eq_nil_iff (t : Text) :
    (splitLines t).2 = [] ↔ t = [] ∨ t.getLast? = some newline := by
  constructor
  · intro hlast
    have heq := splitLines_eq t
    rw [hlast, List.append_nil] at heq
    rcases List.eq_nil_or_concat (splitLines t).1 with hnil | ⟨before, final, hconcat⟩
    · rw [hnil] at heq
      exact Or.inl heq.symm
    · right
      rw [← heq, hconcat]
      simp [line]
  · rintro (rfl | hnewline)
    · rfl
    · obtain ⟨before, rfl⟩ := List.getLast?_eq_some_iff.1 hnewline
      rw [splitLines_append_newline]

/-- The lines of a text, each with its line feed, are the text, to which the last line feed may have to be
added. -/
theorem flatMap_lines (t : Text) :
    t.lines.flatMap line = if t = [] ∨ t.getLast? = some newline then t else t ++ [newline] := by
  have heq := splitLines_eq t
  simp only [lines, splitLines_last_eq_nil_iff]
  split
  · rename_i hended
    rw [(splitLines_last_eq_nil_iff t).2 hended, List.append_nil] at heq
    exact heq
  · rw [List.flatMap_append, List.flatMap_singleton, line, ← List.append_assoc, heq]

end Text

namespace Session

variable {settings : Settings} {s : Session}

/-! ## Unfinished statements -/

theorem Sound.feedAll (h : s.Sound settings) (lines : List Text) : (s.feedAll lines).Sound settings := by
  induction lines generalizing s with
  | nil => exact h
  | cons line lines ih => exact ih (h.feed line)

/-- A line tells whether it leaves a statement unfinished. -/
theorem feed_fst_iff (s : Session) (line : Text) : (s.feed line).1 = true ↔ (s.feed line).2.buffer ≠ [] := by
  rcases s.feed_cases line with ⟨hbuffer, -, hfeed⟩ | ⟨d, -, -, hfeed⟩ | hfeed
  · simp [hfeed, (s.command_unmoved (Text.trim line)).buffer, hbuffer]
  · simp [hfeed, pending, Text.line]
  · have hnothing : (s.afterRun (s.buffer ++ line.line)).buffer = [] := by
      unfold afterRun
      split <;> rfl
    simp [hfeed, hnothing]

theorem getLast?_answers_iff (hs : s.buffer = []) (lines : List Text) :
    (s.answers lines).getLast? = some true ↔ (s.feedAll lines).buffer ≠ [] := by
  rcases List.eq_nil_or_concat lines with rfl | ⟨before, last, rfl⟩
  · simp [answers, Session.feedAll, hs]
  · rw [List.concat_eq_append, answers_append, feedAll_append]
    simp [answers, Session.feedAll, feed_fst_iff]

/-! ## Reports -/

theorem report_refusal? (s : Session) (text : Text) :
    (s.report text).errors.refusal? = s.errors.refusal? := by
  simp only [report, Sink.write, Sink.offer]
  split <;> rfl

theorem foldl_errors {α : Type} {step : Session → α → Session}
    (h : ∀ (s : Session) (a : α), (step s a).errors = s.errors) (items : List α) (s : Session) :
    (items.foldl step s).errors = s.errors := by
  induction items generalizing s with
  | nil => rfl
  | cons item items ih => exact (ih _).trans (h s item)

theorem listNames_errors (s : Session) : s.listNames.errors = s.errors := by
  apply foldl_errors
  intro s' entry
  rfl

theorem command_refusal? (s : Session) (line : Text) :
    (s.command line).errors.refusal? = s.errors.refusal? := by
  unfold command
  split
  split
  · unfold showTree
    split
    · exact s.report_refusal? _
    · rfl
    · rfl
  · split
    · rw [listNames_errors]
    · split
      · rfl
      · exact s.report_refusal? _

/-- Whether reports are accepted does not depend on the lines that are entered. -/
theorem feed_refusal? (s : Session) (line : Text) : (s.feed line).2.errors.refusal? = s.errors.refusal? := by
  rcases s.feed_cases line with ⟨-, -, hfeed⟩ | ⟨d, -, -, hfeed⟩ | hfeed
  · rw [hfeed]
    exact s.command_refusal? _
  · rw [hfeed]
    rfl
  · rw [hfeed]
    unfold afterRun
    split
    · exact s.report_refusal? _
    · rfl

theorem accepts_feedAll (h : s.errors.Accepts) (lines : List Text) : (s.feedAll lines).errors.Accepts := by
  induction lines generalizing s with
  | nil => exact h
  | cons line lines ih =>
      refine ih fun offered => ?_
      rw [feed_refusal?]
      exact h offered

/-! ## The end of the input -/

/-- What cannot be read for want of more is kept. -/
theorem Sound.evaluate_of_incomplete {entered : Text} {d : Diagnostic} (hs : s.Sound settings)
    (h : parse settings.sourceName .prompt entered = .error d) (hd : d.fault.incomplete) :
    s.evaluate entered = (true, s.pending entered) := by
  rw [← hs.settings_eq, ← hs.mode_eq] at h
  simp only [evaluate, Interpreter.run, h, conclude, hd, ↓reduceIte]
  rfl

/-- What is given up is reported. -/
theorem Sound.giveUp_eq {d : Diagnostic} (hs : s.Sound settings)
    (h : parse settings.sourceName .prompt s.buffer = .error d) : s.giveUp = (s.report d.message).abort := by
  rw [← hs.settings_eq, ← hs.mode_eq] at h
  simp only [giveUp, Interpreter.run, h]
  rfl

/-- A last line without its line feed. -/
theorem Sound.finish_line (hs : s.Sound settings) {last : Text} (hlast : last ≠ []) :
    ((s.feed last).2.buffer = [] ∧ s.finish last = (s.feed last).2) ∨
    ((s.feed last).2.buffer ≠ [] ∧ ∃ d, d.fault.incomplete ∧
      parse settings.sourceName .prompt (s.feed last).2.buffer = .error d ∧
      s.finish last = ((s.feed last).2.report d.message).abort) := by
  have hsound := hs.feed last
  have hmore := s.feed_fst_iff last
  rw [finish, if_neg fun h => hlast h.1]
  cases hfeed : s.feed last with
  | mk more fed =>
      rw [hfeed] at hsound hmore
      cases more with
      | false =>
          refine Or.inl ⟨?_, rfl⟩
          by_contra hne
          cases hmore.2 hne
      | true =>
          have hne := hmore.1 rfl
          obtain ⟨d, hparse, hd⟩ := hsound.unfinished hne
          exact Or.inr ⟨hne, d, hd, hparse, hsound.giveUp_eq hparse⟩

/-- No last line: an unfinished statement gets an empty one, which does not finish it. -/
theorem Sound.finish_nil (hs : s.Sound settings) :
    (s.buffer = [] ∧ s.finish [] = s) ∨
    (s.buffer ≠ [] ∧ ∃ d, d.fault.incomplete ∧
      parse settings.sourceName .prompt (s.buffer ++ [Text.newline]) = .error d ∧
      s.finish [] = (s.report d.message).abort) := by
  by_cases hbuffer : s.buffer = []
  · refine Or.inl ⟨hbuffer, ?_⟩
    rw [finish, if_pos ⟨rfl, hbuffer⟩]
  · obtain ⟨d, hparse, hd⟩ := hs.unfinished hbuffer
    rw [← d.lineDown_fault] at hd
    have hlonger := parse_append_newline settings.sourceName .prompt s.buffer
    rw [hparse] at hlonger
    have hfeed : s.feed [] = (true, s.pending (s.buffer ++ [Text.newline])) := by
      rw [feed_of_not_command fun hnil => absurd hnil hbuffer]
      exact hs.evaluate_of_incomplete hlonger hd
    have hsound := hs.feed []
    rw [hfeed] at hsound
    refine Or.inr ⟨hbuffer, d.lineDown, hd, hlonger, ?_⟩
    rw [finish, if_neg fun h => hbuffer h.2, hfeed]
    exact hsound.giveUp_eq hlonger

/-- An input ends after its lines. If these leave a statement unfinished, then it is reported and dropped,
with an empty line behind it if there is no other line without its line feed. -/
theorem Sound.runBuffered_cases (hs : s.Sound settings) (data : Text) :
    let fed := s.feedAll data.lines
    (fed.buffer = [] ∧ s.runBuffered ⟨data, none⟩ = fed) ∨
    (fed.buffer ≠ [] ∧ ∃ d, d.fault.incomplete ∧
      parse settings.sourceName .prompt
        (fed.buffer ++ if (Text.splitLines data).2 = [] then [Text.newline] else []) = .error d ∧
      s.runBuffered ⟨data, none⟩ = (fed.report d.message).abort) := by
  have hcomplete := hs.feedAll (Text.splitLines data).1
  have hended : s.runBuffered ⟨data, none⟩ =
      (s.feedAll (Text.splitLines data).1).finish (Text.splitLines data).2 := rfl
  rw [hended]
  by_cases hlast : (Text.splitLines data).2 = []
  · simp only [Text.lines, hlast, ↓reduceIte]
    exact hcomplete.finish_nil
  · simp only [Text.lines, hlast, ↓reduceIte, feedAll_append, List.append_nil]
    exact hcomplete.finish_line hlast

/-- The whole input is consumed exactly once. In the end nothing is unfinished and no failure is remembered.
The output and the names are those after the lines of the input, and so are the reports, to which one is added
if and only if the last line has left a statement unfinished: that the statement cannot be read for want of
more. A last line feed counts as the beginning of one more line. -/
theorem piped_input_is_consumed_once (settings : Settings) (out errors : Sink) (herrors : errors.Accepts)
    (data : Text) :
    let s := start settings out errors
    let fed := s.feedAll data.lines
    let ended := s.runBuffered ⟨data, none⟩
    ((∀ line ∈ data.lines, Text.newline ∉ line) ∧ data.lines.flatMap Text.line =
      if data = [] ∨ data.getLast? = some Text.newline then data else data ++ [Text.newline]) ∧
    ended.buffer = [] ∧ ended.interpreter.hadError = false ∧ ended.sink = fed.sink ∧
    ended.interpreter.state.scope = fed.interpreter.state.scope ∧
    ((s.answers data.lines).getLast? ≠ some true → ended.errors.writes = fed.errors.writes) ∧
    ((s.answers data.lines).getLast? = some true →
      ∃ d, d.fault.incomplete ∧
        parse settings.sourceName .prompt
          (fed.buffer ++ if data.getLast? = some Text.newline then [Text.newline] else []) = .error d ∧
        ended.errors.writes = fed.errors.writes ++ [d.message.line]) := by
  intro s fed ended
  refine ⟨⟨fun line => Text.newline_not_mem_lines, data.flatMap_lines⟩, ?_⟩
  have hsound : s.Sound settings := start_sound settings out errors
  have haccepts : fed.errors.Accepts := accepts_feedAll herrors data.lines
  have hflagged : fed.interpreter.hadError = true ↔ fed.buffer ≠ [] := (hsound.feedAll data.lines).flagged
  have hanswers : (s.answers data.lines).getLast? = some true ↔ fed.buffer ≠ [] :=
    getLast?_answers_iff rfl data.lines
  rw [ne_eq, hanswers]
  obtain ⟨hbuffer, hended⟩ | ⟨hbuffer, d, hd, hparse, hended⟩ :
      (fed.buffer = [] ∧ ended = fed) ∨ (fed.buffer ≠ [] ∧ _) := hsound.runBuffered_cases data
  · rw [hended]
    exact ⟨hbuffer, by simpa [hbuffer] using hflagged, rfl, rfl, fun _ => rfl, fun hne => absurd hbuffer hne⟩
  · have hreport : (fed.report d.message).abort.errors = fed.errors.appended [d.message.line] :=
      haccepts.write _
    have hdata : data ≠ [] := by
      rintro rfl
      exact hbuffer rfl
    simp only [Text.splitLines_last_eq_nil_iff, hdata, false_or] at hparse
    rw [show ended = (fed.report d.message).abort from hended]
    refine ⟨rfl, rfl, rfl, rfl, fun hnil => absurd hbuffer hnil, fun _ => ⟨d, hd, hparse, ?_⟩⟩
    rw [hreport, Sink.appended_writes]

/-- A line is printed, and a parenthesis stays open. -/
theorem piped_input_is_consumed_once_open :
    let s := start .default .unlimited .unlimited
    let data := Text.ofString "println true\n("
    let fed := s.feedAll data.lines
    let ended := s.runBuffered ⟨data, none⟩
    s.errors.Accepts ∧ (s.answers data.lines).getLast? = some true ∧ ended.buffer = [] ∧
      ended.interpreter.hadError = false ∧ ended.sink = fed.sink ∧
      fed.sink.writes = [Text.ofString "true\n"] ∧ fed.errors.writes = [] ∧
      ∃ d : Diagnostic, d.fault.incomplete ∧ ended.errors.writes = fed.errors.writes ++ [d.message.line] := by
  intro s data fed ended
  have hopen : (s.answers data.lines).getLast? = some true := by decide +kernel
  have hprinted : fed.sink.writes = [Text.ofString "true\n"] := by decide +kernel
  have hsilent : fed.errors.writes = [] := by decide +kernel
  obtain ⟨-, hbuffer, hflag, hsink, -, -, hreport⟩ :=
    piped_input_is_consumed_once .default .unlimited .unlimited Sink.unlimited_accepts data
  obtain ⟨d, hd, -, hwrites⟩ := hreport hopen
  exact ⟨Sink.unlimited_accepts, hopen, hbuffer, hflag, hsink, hprinted, hsilent, d, hd, hwrites⟩

/-! ## A line feed at the end -/

theorem Sound.abort_eq_self (hs : s.Sound settings) (hbuffer : s.buffer = []) : s.abort = s := by
  have hflag : s.interpreter.hadError = false := by simpa [hbuffer] using hs.flagged
  obtain ⟨⟨mode, state, hadError⟩, settings', errors, buffer, ruler⟩ := s
  cases hbuffer
  cases hflag
  rfl

/-- An empty line does nothing where nothing is unfinished. -/
theorem Sound.feed_nil (hs : s.Sound settings) (hbuffer : s.buffer = []) : s.feed [] = (false, s) := by
  have hparse : parse s.settings.sourceName s.interpreter.mode [Text.newline] = .ok [] := by
    have hlonger := parse_append_newline s.settings.sourceName s.interpreter.mode []
    rwa [parse_nil] at hlonger
  have hrun : s.interpreter.run s.settings.sourceName [Text.newline] = (.ok .nil, s.interpreter) := by
    simp [Interpreter.run, hparse, Stmt.execAll, Stmt.execFrom]
  have hentered : s.buffer ++ Text.line [] = [Text.newline] := by rw [hbuffer]; rfl
  rw [feed_of_not_command fun _ => by decide, hentered, evaluate, hrun]
  exact congrArg (Prod.mk false) (hs.abort_eq_self hbuffer)

/-- One more line feed at the end of a text that has none adds no line, unless there is none. -/
theorem start_feedAll_lines (settings : Settings) (out errors : Sink) {t : Text}
    (ht : t.getLast? ≠ some Text.newline) :
    (start settings out errors).feedAll (t ++ [Text.newline]).lines =
      (start settings out errors).feedAll t.lines := by
  by_cases hnil : t = []
  · subst hnil
    have hfeed := (start_sound settings out errors).feed_nil rfl
    exact congrArg Prod.snd hfeed
  · have hlast : (Text.splitLines t).2 ≠ [] := by
      rw [ne_eq, Text.splitLines_last_eq_nil_iff]
      exact fun h => h.elim hnil ht
    rw [Text.lines_append_newline hlast]

/-- A line feed at the end of a piped input matters to the line on which the input ends, and to nothing else.
The output and the names are the same without it. So are the reports, except for the last one where the input
ends inside a construct other than a string: it names the line on which the input ends, which is the next one
if there is a line feed. -/
theorem final_line_feed_moves_end_of_input (settings : Settings) (out errors : Sink) {t : Text}
    (ht : t.getLast? ≠ some Text.newline) :
    let s := start settings out errors
    let fed := s.feedAll t.lines
    let piped := s.runBuffered ⟨t, none⟩
    let piped' := s.runBuffered ⟨t ++ [Text.newline], none⟩
    (piped'.sink = piped.sink ∧ piped'.interpreter.state.scope = piped.interpreter.state.scope) ∧
    (∀ c wanted, parse settings.sourceName .prompt fed.buffer = .error ⟨c, .endedEarly wanted⟩ →
      piped.errors = fed.errors.write (Diagnostic.mk c (.endedEarly wanted)).message.line ∧
      piped'.errors =
        fed.errors.write (Diagnostic.mk { c with line := c.line + 1 } (.endedEarly wanted)).message.line) ∧
    ((∀ c wanted, parse settings.sourceName .prompt fed.buffer ≠ .error ⟨c, .endedEarly wanted⟩) →
      piped'.errors = piped.errors) := by
  intro s fed piped piped'
  have hsound : s.Sound settings := start_sound settings out errors
  have hlines : s.feedAll (t ++ [Text.newline]).lines = fed := start_feedAll_lines settings out errors ht
  have hcases' := hsound.runBuffered_cases (t ++ [Text.newline])
  simp only [hlines, Text.splitLines_append_newline, ↓reduceIte] at hcases'
  obtain ⟨hbuffer, hpiped⟩ | ⟨hbuffer, d, -, hparse, hpiped⟩ :
      (fed.buffer = [] ∧ piped = fed) ∨ (fed.buffer ≠ [] ∧ _) := hsound.runBuffered_cases t
  · -- nothing is unfinished, and the two conversations are the same
    obtain ⟨-, hpiped'⟩ | ⟨hbuffer', -⟩ := hcases'
    · rw [hpiped, show piped' = fed from hpiped', hbuffer, parse_nil]
      refine ⟨⟨rfl, rfl⟩, fun c wanted h => ?_, fun _ => rfl⟩
      cases h
    · exact absurd hbuffer hbuffer'
  · obtain ⟨hbuffer', -⟩ | ⟨-, d', -, hparse', hpiped'⟩ := hcases'
    · exact absurd hbuffer' hbuffer
    · have hlast : (Text.splitLines t).2 ≠ [] := by
        rw [ne_eq, Text.splitLines_last_eq_nil_iff]
        rintro (rfl | hnewline)
        · exact hbuffer rfl
        · exact ht hnewline
      rw [if_neg hlast, List.append_nil] at hparse
      rw [parse_append_newline, hparse] at hparse'
      obtain rfl : d.lineDown = d' := Except.error.inj hparse'
      rw [show piped = (fed.report d.message).abort from hpiped,
        show piped' = (fed.report d.lineDown.message).abort from hpiped', hparse]
      refine ⟨⟨rfl, rfl⟩, fun c wanted h => ?_, fun h => ?_⟩
      · cases h
        exact ⟨rfl, rfl⟩
      · have hstays : d.lineDown = d := by
          refine Diagnostic.lineDown_eq_self fun wanted hfault => h d.context wanted ?_
          rw [← hfault]
        rw [hstays]

/-- The expectation of a source that ended early. -/
def endedEarly? {α : Type} : Except Diagnostic α → Option Expectation
  | .error ⟨_, .endedEarly wanted⟩ => some wanted
  | _ => none

theorem exists_of_endedEarly? {α : Type} {x : Except Diagnostic α} {wanted : Expectation}
    (h : endedEarly? x = some wanted) : ∃ c, x = .error ⟨c, .endedEarly wanted⟩ := by
  unfold endedEarly? at h
  split at h
  · cases h
    exact ⟨_, rfl⟩
  · cases h

/-- A sum without its second operand. -/
theorem final_line_feed_moves_end_of_input_sum :
    let s := start .default .unlimited .unlimited
    let t := Text.ofString "1 +"
    let fed := s.feedAll t.lines
    t.getLast? ≠ some Text.newline ∧
      ∃ c, parse Settings.default.sourceName .prompt fed.buffer = .error ⟨c, .endedEarly .expression⟩ ∧
        (s.runBuffered ⟨t, none⟩).errors =
          fed.errors.write (Diagnostic.mk c (.endedEarly .expression)).message.line ∧
        (s.runBuffered ⟨t ++ [Text.newline], none⟩).errors = fed.errors.write
          (Diagnostic.mk { c with line := c.line + 1 } (.endedEarly .expression)).message.line := by
  intro s t fed
  have ht : t.getLast? ≠ some Text.newline := by decide
  have hended : endedEarly? (parse Settings.default.sourceName .prompt fed.buffer) = some .expression := by
    decide +kernel
  obtain ⟨c, hparse⟩ := exists_of_endedEarly? hended
  exact ⟨ht, c, hparse, (final_line_feed_moves_end_of_input .default .unlimited .unlimited ht).2.1 c _ hparse⟩

/-- The sum ends on the second line, and on the third if there is a line feed behind it. -/
theorem final_line_feed_matters :
    let s := start .default .unlimited .unlimited
    let t := Text.ofString "1 +"
    let piped := s.runBuffered ⟨t, none⟩
    let piped' := s.runBuffered ⟨t ++ [Text.newline], none⟩
    t.getLast? ≠ some Text.newline ∧ piped'.errors.writes ≠ piped.errors.writes ∧
      piped.errors.writes =
        [Text.ofString "File \"<stdin>\", line 2, in <root>\n    Expect expression at end\n"] ∧
      piped'.errors.writes =
        [Text.ofString "File \"<stdin>\", line 3, in <root>\n    Expect expression at end\n"] := by
  decide +kernel

end Session

end LetScript
