import LetScript.Scope.Frame

/-!
# Scopes

The scope in which code runs: the global frame and, inside blocks, one more frame for each open block. A
name means its binding in the innermost frame that holds it.
-/

namespace LetScript

/-- A chain of frames, innermost first. -/
inductive Scope where
  /-- The global frame. -/
  | root (frame : Frame)
  /-- The frame of a block, inside another scope. -/
  | nested (frame : Frame) (outer : Scope)

namespace Scope

/-- The scope of a program that has not run yet. -/
def initial : Scope := root .empty

/-- The innermost frame. -/
def frame : Scope → Frame
  | root f => f
  | nested f _ => f

/-- The outermost frame. -/
def globals : Scope → Frame
  | root f => f
  | nested _ outer => outer.globals

/-- The number of open blocks. -/
def depth : Scope → Nat
  | root _ => 0
  | nested _ outer => outer.depth + 1

/-- The nearest binding of a name. -/
def get? : Scope → Text → Option Binding
  | root f, name => f.get? name
  | nested f outer, name =>
    match f.get? name with
    | some b => some b
    | none => outer.get? name

/-- Gives another value to the nearest binding of a name, if there is one. -/
def assign : Scope → Text → Value → Scope
  | root f, name, v => root (f.setValue name v)
  | nested f outer, name, v =>
    if f.contains name then nested (f.setValue name v) outer else nested f (outer.assign name v)

/-- Binds a name in the innermost frame. -/
def define : Scope → Text → Binding → Scope
  | root f, name, b => root (f.define name b)
  | nested f outer, name, b => nested (f.define name b) outer

/-- Opens a block. -/
def enter (s : Scope) : Scope := nested .empty s

/-- Closes the innermost block. -/
def leave : Scope → Scope
  | root f => root f
  | nested _ outer => outer

end Scope

end LetScript
