import LetScript.Value.Basic

/-!
# Frames

A frame is one level of scope: a finite map from names to bindings, kept as a list in strict byte order of
the names, so that every frame has one representation and its names are listed in order.
-/

namespace LetScript

/-- What a name stands for. -/
structure Binding where
  /-- Whether the name may be given another value. -/
  isMutable : Bool
  /-- Its current value. -/
  value : Value

/-- Binds a name in a list of entries in increasing order, replacing a binding of the same name. -/
def Frame.insertEntry (name : Text) (b : Binding) : List (Text × Binding) → List (Text × Binding)
  | [] => [(name, b)]
  | (n, c) :: rest =>
    if name < n then (name, b) :: (n, c) :: rest
    else if n = name then (name, b) :: rest
    else (n, c) :: Frame.insertEntry name b rest

/-- The names after an insertion are the old ones and the new one. -/
theorem Frame.mem_insertEntry {name : Text} {b : Binding} {entries : List (Text × Binding)}
    {e : Text × Binding} (h : e ∈ Frame.insertEntry name b entries) : e.1 = name ∨ e ∈ entries := by
  induction entries with
  | nil => simp_all [Frame.insertEntry]
  | cons x rest ih =>
      simp only [Frame.insertEntry] at h
      split at h
      · simp only [List.mem_cons] at h ⊢
        rcases h with rfl | h
        · exact Or.inl rfl
        · exact Or.inr h
      · split at h
        · simp only [List.mem_cons] at h ⊢
          rcases h with rfl | h
          · exact Or.inl rfl
          · exact Or.inr (Or.inr h)
        · simp only [List.mem_cons] at h ⊢
          rcases h with rfl | h
          · exact Or.inr (Or.inl rfl)
          · exact (ih h).imp id Or.inr

/-- Insertion keeps the order. -/
theorem Frame.pairwise_insertEntry {name : Text} {b : Binding} {entries : List (Text × Binding)}
    (h : entries.Pairwise fun x y => x.1 < y.1) :
    (Frame.insertEntry name b entries).Pairwise fun x y => x.1 < y.1 := by
  induction entries with
  | nil => simp [Frame.insertEntry]
  | cons x rest ih =>
      obtain ⟨hx, hrest⟩ := List.pairwise_cons.1 h
      simp only [Frame.insertEntry]
      split
      · rename_i hlt
        refine List.pairwise_cons.2 ⟨fun y hy => ?_, h⟩
        rcases List.mem_cons.1 hy with rfl | hy
        · exact hlt
        · exact List.lt_trans hlt (hx y hy)
      · split
        · rename_i heq
          exact List.pairwise_cons.2 ⟨fun y hy => heq ▸ hx y hy, hrest⟩
        · rename_i hnlt hne
          refine List.pairwise_cons.2 ⟨fun y hy => ?_, ih hrest⟩
          rcases Frame.mem_insertEntry hy with rfl | hy
          · exact Std.lt_of_le_of_ne hnlt hne
          · exact hx y hy

/-- One level of scope. -/
structure Frame where
  /-- The names with their bindings. -/
  entries : List (Text × Binding)
  /-- The names are in strict byte order. -/
  sorted : entries.Pairwise fun x y => x.1 < y.1

namespace Frame

/-- No names. -/
def empty : Frame := ⟨[], .nil⟩

/-- The binding of a name. -/
def get? (f : Frame) (name : Text) : Option Binding := f.entries.lookup name

/-- Whether a name is bound. -/
def contains (f : Frame) (name : Text) : Bool := (f.get? name).isSome

/-- Binds a name, replacing a binding of the same name. -/
def define (f : Frame) (name : Text) (b : Binding) : Frame :=
  ⟨insertEntry name b f.entries, pairwise_insertEntry f.sorted⟩

/-- Gives a name another value, if it is bound; whether it is mutable stays as it is. -/
def setValue (f : Frame) (name : Text) (v : Value) : Frame :=
  ⟨f.entries.map fun e => (e.1, if e.1 = name then { e.2 with value := v } else e.2),
    List.pairwise_map.2 f.sorted⟩

/-- The names in byte order. -/
def names (f : Frame) : List Text := f.entries.map Prod.fst

end Frame

end LetScript
