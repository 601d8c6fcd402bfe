import LetScript.Text.Basic

/-!
# Settings

What a user can tune about a conversation, and the values that hold when nothing is tuned.
-/

namespace LetScript

/-- The tunable parts of a conversation. -/
structure Settings where
  /-- Shown when a new statement is awaited. -/
  prompt : Text
  /-- Shown when an unfinished statement is to be continued. -/
  continuationPrompt : Text
  /-- Whether entered lines are kept. -/
  history : Bool
  /-- The file for entered lines. -/
  historyFile : Text
  /-- How diagnostics call what is entered. -/
  sourceName : Text
  /-- The number of columns for an echoed value; no limit unless positive. -/
  maxEchoWidth : Int

namespace Settings

/-- The settings of a user who has not set anything. -/
def default : Settings where
  prompt := Text.ofString "::> "
  continuationPrompt := Text.ofString "... "
  history := true
  historyFile := Text.ofString ".uvl_history"
  sourceName := Text.ofString "stdin"
  maxEchoWidth := 0

end Settings

end LetScript
