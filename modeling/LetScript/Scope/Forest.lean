import LetScript.Scope.Frame

/-!
# Forests of frames

Frames that share outer frames: each frame has a number and at most one parent, which is older. A scope
is the path from one frame to its root, and a frame may lie on several such paths.
-/

namespace LetScript

/-- A frame with the number of its parent. -/
structure Forest.Node where
  /-- The frame around this one. -/
  parent : Option Nat
  /-- The names of this frame. -/
  frame : Frame

/-- Frames numbered in the order of their creation. -/
structure Forest where
  /-- The frames by number. -/
  nodes : List Forest.Node
  /-- A parent is older than its children. -/
  older : ∀ (i : Nat) (node : Forest.Node) (p : Nat),
    nodes[i]? = some node → node.parent = some p → p < i

namespace Forest

/-- No frames. -/
def empty : Forest := ⟨[], by simp⟩

/-- The parent of a frame. -/
def parent? (t : Forest) (i : Nat) : Option Nat := t.nodes[i]?.bind (·.parent)

/-- The frame with a number; a number that is not in use stands for an empty frame. -/
def frame (t : Forest) (i : Nat) : Frame := (t.nodes[i]?.map (·.frame)).getD .empty

/-- A parent is older than its children. -/
theorem lt_of_parent? {t : Forest} {i p : Nat} (h : t.parent? i = some p) : p < i := by
  obtain ⟨node, hnode, hp⟩ := Option.bind_eq_some_iff.1 h
  exact t.older i node p hnode hp

/-- Adds a frame below an existing one, or a root when that number is not in use. -/
def addChild (t : Forest) (i : Nat) : Forest where
  nodes := t.nodes ++ [⟨if i < t.nodes.length then some i else none, .empty⟩]
  older := by
    intro j node p hj hp
    rw [List.getElem?_append] at hj
    split at hj
    · exact t.older j node p hj hp
    · rename_i hge
      rw [List.getElem?_eq_some_iff] at hj
      obtain ⟨_, rfl⟩ := hj
      simp only [List.getElem_singleton] at hp
      split at hp
      · simp only [Option.some.injEq] at hp; omega
      · simp at hp

/-- Adds a frame without a parent. -/
def addRoot (t : Forest) : Forest := t.addChild t.nodes.length

/-- Changes the frame with a number, if the number is in use. -/
def modify (t : Forest) (i : Nat) (change : Frame → Frame) : Forest where
  nodes := t.nodes.modify i fun node => { node with frame := change node.frame }
  older := by
    intro j node p hj hp
    rw [List.getElem?_modify] at hj
    obtain ⟨old, hold, rfl⟩ := Option.map_eq_some_iff.1 hj
    refine t.older j old p hold ?_
    split at hp <;> exact hp

/-- The path from a frame to its root. -/
def path (t : Forest) (i : Nat) : List Nat :=
  match _h : t.parent? i with
  | none => [i]
  | some p => i :: t.path p
termination_by i
decreasing_by exact lt_of_parent? _h

/-- The nearest frame on the path from `i` that holds a name. -/
def holder? (t : Forest) (i : Nat) (name : Text) : Option Nat :=
  (t.path i).find? fun j => (t.frame j).contains name

/-- The nearest binding of a name, seen from a frame. -/
def get? (t : Forest) (i : Nat) (name : Text) : Option Binding :=
  (t.holder? i name).bind fun j => (t.frame j).get? name

/-- Binds a name in a frame. -/
def define (t : Forest) (i : Nat) (name : Text) (b : Binding) : Forest :=
  t.modify i (·.define name b)

/-- Gives another value to the nearest binding of a name, seen from a frame; `none` if there is none. -/
def assign? (t : Forest) (i : Nat) (name : Text) (v : Value) : Option Forest :=
  (t.holder? i name).map fun j => t.modify j (·.setValue name v)

/-- Whether a name is bound in a frame itself. -/
def contains (t : Forest) (i : Nat) (name : Text) : Bool := (t.frame i).contains name

end Forest

end LetScript
