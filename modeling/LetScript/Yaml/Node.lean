import LetScript.Yaml.Resolve

/-!
# Documents

The trees that documents spell: scalars, sequences and mappings, each with a tag and the line on which it
starts, and references to parts that have been named.
-/

namespace LetScript

namespace Yaml

/-- A part of a document. -/
inductive Node where
  /-- A piece of text; the tag tells what it stands for. -/
  | scalar (line : Nat) (tag : Text) (text : Text)
  /-- A list of parts. -/
  | sequence (line : Nat) (tag : Text) (items : List Node)
  /-- A list of keys with their values. -/
  | mapping (line : Nat) (tag : Text) (pairs : List (Node × Node))
  /-- The part with a name, by its number among the named parts. The place tells references apart. -/
  | reference (line place : Nat) (name : Text) (target : Nat)

instance : Inhabited Node := ⟨.scalar 0 [] []⟩

namespace Node

/-- The line on which a part starts. -/
def line : Node → Nat
  | scalar line _ _ => line
  | sequence line _ _ => line
  | mapping line _ _ => line
  | reference line _ _ _ => line

/-- A value that is left out. -/
def omitted (line : Nat) : Node := scalar line Tag.null []

/-- Whether a key asks for the pairs of its value to be taken over. -/
def isMerge : Node → Bool
  | scalar _ tag text => tag = Tag.merge && text = Text.ofString "<<"
  | _ => false

end Node

/-- A document: its root and its named parts by number. -/
structure Document where
  /-- The whole. -/
  root : Node
  /-- The parts that have been named. -/
  named : List (Nat × Node)
  /-- The number of characters that spell it, and more than the parts that it has. -/
  extent : Nat

namespace Document

/-- The part that a reference stands for; any other part stands for itself. -/
def follow (d : Document) (node : Node) : Node :=
  match node with
  | .reference line _ _ target => (d.named.lookup target).getD (.omitted line)
  | node => node

end Document

end Yaml

end LetScript
