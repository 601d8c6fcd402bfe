import LetScript.Session.Basic

/-!
# Piped conversations

A conversation over an input that nobody types: no prompts are shown, a last line counts without its line
feed, and a statement that the input leaves unfinished is reported.
-/

namespace LetScript

namespace Session

/-- Runs an unfinished statement once more to report why it cannot be finished, and drops it. The report of a run
without failure, to which nothing unfinished comes, says that there is nothing to report. -/
def giveUp (s : Session) : Session :=
  match s.interpreter.run s.settings.sourceName s.buffer with
  | (.error d, it) => ({ s with interpreter := it }.report d.message).abort
  | (.ok _, it) => ({ s with interpreter := it }.report (Text.ofString "<nil>")).abort

/-- The end of the input after a last line without line feed, which may be empty. -/
def finish (s : Session) (last : Text) : Session :=
  if last = [] ∧ s.buffer = [] then s
  else
    match s.feed last with
    | (true, s') => s'.giveUp
    | (false, s') => s'

/-- The report of an input that cannot be read further. -/
def readError (cause : Text) : Text := Text.ofString "read error: " ++ cause

/-- Holds a conversation over an input. If the input fails, a last line without line feed is lost. -/
def runBuffered (s : Session) (input : Input) : Session :=
  match Text.splitLines input.data with
  | (lines, last) =>
    match input.failure with
    | none => (s.feedAll lines).finish last
    | some cause => (s.feedAll lines).report (readError cause)

end Session

end LetScript
