/-!
# Tables of code point ranges

A character property is stored as the list of its maximal ranges in increasing order, so that a look-up
can stop at the first range that lies above the code point.
-/

namespace LetScript.Text

/-- A set of code points: closed ranges `(low, high)` in increasing order. -/
abbrev Ranges := List (Nat × Nat)

/-- Membership in a table, given that its ranges are in increasing order. -/
def Ranges.contains : Ranges → Nat → Bool
  | [], _ => false
  | (low, high) :: rest, n => if n < low then false else n ≤ high || Ranges.contains rest n

end LetScript.Text
