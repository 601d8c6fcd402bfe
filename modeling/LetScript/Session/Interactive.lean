import LetScript.Session.Buffered
import LetScript.Session.History
import LetScript.Text.Control

/-!
# Typed conversations

A conversation with prompts. Lines that complete a statement enter the history, trimmed; an unfinished
statement is dropped when the input ends. A prompt that holds a control character cannot be shown, and
ends the conversation.
-/

namespace LetScript

/-- A prompt that has been shown, and what the session printed before the next one. -/
structure Turn where
  /-- The prompt. -/
  prompt : Text
  /-- The output after it. -/
  printed : Text

/-- How a typed conversation ended. -/
structure Conversation where
  /-- The session after it. -/
  session : Session
  /-- The lines entered in this conversation and before. -/
  history : History
  /-- The prompts and what followed them. -/
  turns : List Turn

namespace Session

/-- Whether a prompt can be shown. -/
def canShow (prompt : Text) : Bool := (Glyph.decode prompt).all fun g => !Text.isControl g.shown

/-- The turn from a session to the one after it. -/
def turn (before after : Session) : Turn :=
  ⟨before.prompt, after.sink.textSince before.sink.writes.length⟩

/-- The history after a line has been entered. -/
def remember (history : History) (more : Bool) (line : Text) : History :=
  let entry := Text.trim line
  if more ∨ entry = [] then history else history.append entry

/-- The session and the history after a line has been typed. -/
def enter (s : Session) (history : History) (line : Text) : Session × History :=
  match s.feed line with
  | (more, s') => (s', remember history more line)

/-- The session after its input has ended: the line of the last prompt is closed. -/
def hangUp (s : Session) : Session := s.print []

/-- The session after a prompt that cannot be shown. -/
def refusePrompt (s : Session) : Session := s.report (readError (Text.ofString "invalid prompt"))

/-- Holds a conversation over typed lines. -/
def converse (s : Session) (history : History) : List Text → Conversation
  | [] =>
    if canShow s.prompt then ⟨s.hangUp, history, [turn s s.hangUp]⟩ else ⟨s.refusePrompt, history, []⟩
  | line :: rest =>
    if canShow s.prompt then
      match s.enter history line with
      | (s', history') =>
        let after := s'.converse history' rest
        { after with turns := turn s s' :: after.turns }
    else ⟨s.refusePrompt, history, []⟩

end Session

end LetScript
