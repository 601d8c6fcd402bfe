import LetScript.Text.Basic

/-!
# Sinks

Where a program prints. A sink records the writes that are accepted, in order. Whoever is on the other
side decides about each write, and may take into account all that was offered before.
-/

namespace LetScript

/-- A record of accepted writes, and the judgement of those to come. -/
structure Sink where
  /-- The accepted writes in order. -/
  writes : List Text
  /-- All writes that were offered, in order. -/
  offered : List Text
  /-- Why the last of the offered writes is refused; `none` if it is accepted. -/
  refusal? : List Text → Option Text

namespace Sink

/-- A sink that never refuses. -/
def unlimited : Sink := ⟨[], [], fun _ => none⟩

/-- Why a sink without room refuses a write. -/
def closed : Text := Text.ofString "sink closed"

/-- A sink that accepts a number of writes, and none after them. -/
def limited (n : Nat) : Sink := ⟨[], [], fun offered => if offered.length ≤ n then none else some closed⟩

/-- Offers a write: why it is refused, if it is, and the sink after it. -/
def offer (s : Sink) (t : Text) : Option Text × Sink :=
  let offered := s.offered ++ [t]
  match s.refusal? offered with
  | none => (none, ⟨s.writes ++ [t], offered, s.refusal?⟩)
  | some cause => (some cause, ⟨s.writes, offered, s.refusal?⟩)

/-- The sink after a write that nobody checks. -/
def write (s : Sink) (t : Text) : Sink := (s.offer t).2

/-- All that has been printed. -/
def text (s : Sink) : Text := s.writes.flatten

/-- What has been printed since the sink held `earlier` writes. -/
def textSince (s : Sink) (earlier : Nat) : Text := (s.writes.drop earlier).flatten

end Sink

end LetScript
