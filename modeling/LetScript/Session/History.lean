import LetScript.Text.Glyph

/-!
# Lines and histories

How a console divides its input into lines, and the lines that a user has entered. A console has room
for a limited number of bytes: a longer line comes in several pieces.
-/

namespace LetScript

namespace Console

/-- The number of bytes for which a console has room. -/
def room : Nat := 4096

/-- The carriage return. -/
def carriageReturn : UInt8 := 0x0D

/-- The length of the first piece of a line that does not fit. A carriage return is not the end of a
piece, since a line feed may follow it. -/
def pieceLength (t : Text) : Nat :=
  if t[room - 1]? = some carriageReturn then room - 1 else room

theorem pieceLength_pos (t : Text) : 0 < pieceLength t := by
  unfold pieceLength; split <;> decide

/-- The pieces of a line that does not fit, and the rest of it, which does. -/
def pieces (t : Text) : List Text × Text :=
  if t.length < room then ([], t)
  else
    match pieces (t.drop (pieceLength t)) with
    | (others, rest) => (t.take (pieceLength t) :: others, rest)
termination_by t.length
decreasing_by
  have := pieceLength_pos t
  simp only [List.length_drop, room] at *
  omega

/-- A line whose line feed has been read, without the carriage return that may stand before it. -/
def stripReturn (t : Text) : Text := if t.getLast? = some carriageReturn then t.dropLast else t

/-- The lines that a console delivers. A last line counts without its line feed, unless it is empty. -/
def lines (data : Text) : List Text :=
  match Text.splitLines data with
  | (complete, last) =>
    let whole := complete.flatMap fun line =>
      match pieces line with
      | (first, rest) => first ++ [stripReturn rest]
    match pieces last with
    | (first, rest) => whole ++ first ++ (if rest = [] then [] else [rest])

end Console

/-- The lines that a user has entered, oldest first. -/
abbrev History := List Text

namespace History

/-- The number of lines that are kept. -/
def limit : Nat := 1000

/-- The newest lines, as many as are kept. -/
def newest (h : History) : History := h.drop (h.length - limit)

/-- Adds a line, unless it repeats the one before it. -/
def append (h : History) (line : Text) : History :=
  if h.getLast? = some line then h else newest (h ++ [line])

/-- Whether a line can be stored: it fits into the console, and all its bytes belong to characters. -/
def isStorable (line : Text) : Bool :=
  line.length < Console.room &&
    (Glyph.decode line).all fun g => match g with | .char _ => true | .stray _ => false

/-- The history that a file holds: its lines up to the first that cannot be stored. -/
def ofText (data : Text) : History :=
  match Text.splitLines data with
  | (complete, last) =>
    let lines := complete.map (fun line => (line, Console.stripReturn line)) ++
      (if last = [] then [] else [(last, last)])
    newest ((lines.takeWhile fun (stored, _) => isStorable stored).map Prod.snd)

/-- A history as a file holds it: one line after the other. -/
def toText (h : History) : Text := h.flatMap Text.line

end History

end LetScript
