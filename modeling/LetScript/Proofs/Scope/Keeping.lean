import LetScript.Scope.Basic

/-!
# What a later scope keeps of an earlier one

A binding is kept if it stays mutable or immutable as it was and, if it is immutable, has the value that
it had. A frame is kept if it has the same names and all their bindings are kept; it grows if names may
come in. In a scope that grows only the innermost frame does.
-/

namespace LetScript

/-! ## Look-ups -/

namespace Frame

theorem lookup_cons_eq (n other : Text) (b : Binding) (rest : List (Text × Binding)) :
    ((n, b) :: rest).lookup other = if other = n then some b else rest.lookup other := by
  by_cases h : other = n
  · simp [h]
  · have hbeq : (other == n) = false := by simpa using h
    simp [List.lookup_cons, h, hbeq]

theorem lookup_insertEntry (name other : Text) (b : Binding) (entries : List (Text × Binding)) :
    (insertEntry name b entries).lookup other = if other = name then some b else entries.lookup other := by
  induction entries with
  | nil => rw [insertEntry, lookup_cons_eq]
  | cons x rest ih =>
      obtain ⟨n, c⟩ := x
      simp only [insertEntry]
      split
      · rw [lookup_cons_eq]
      · split
        · rename_i hn
          rw [lookup_cons_eq, lookup_cons_eq, hn]
          by_cases h : other = name <;> simp [h]
        · rename_i hn
          rw [lookup_cons_eq, lookup_cons_eq, ih]
          by_cases h : other = n
          · have hne : other ≠ name := fun ho => hn (h ▸ ho)
            rw [if_pos h, if_neg hne, if_pos h]
          · rw [if_neg h, if_neg h]

@[simp] theorem get?_define (f : Frame) (name other : Text) (b : Binding) :
    (f.define name b).get? other = if other = name then some b else f.get? other :=
  lookup_insertEntry name other b f.entries

@[simp] theorem get?_setValue (f : Frame) (name other : Text) (v : Value) :
    (f.setValue name v).get? other =
      (f.get? other).map fun b => if other = name then { b with value := v } else b := by
  simp only [get?, setValue]
  induction f.entries with
  | nil => rfl
  | cons x rest ih =>
      obtain ⟨n, c⟩ := x
      rw [List.map_cons, lookup_cons_eq, lookup_cons_eq, ih]
      by_cases h : other = n
      · subst h
        simp
      · rw [if_neg h, if_neg h]

end Frame

/-! ## Bindings and frames -/

/-- A binding keeps its mutability and, if it is immutable, its value. -/
structure Binding.Keeps (b b' : Binding) : Prop where
  isMutable : b'.isMutable = b.isMutable
  value : b.isMutable = false → b'.value = b.value

namespace Binding.Keeps

theorem refl (b : Binding) : b.Keeps b := ⟨rfl, fun _ => rfl⟩

theorem trans {b b' b'' : Binding} (h : b.Keeps b') (h' : b'.Keeps b'') : b.Keeps b'' := by
  refine ⟨h'.isMutable.trans h.isMutable, fun hb => ?_⟩
  rw [h'.value (h.isMutable.trans hb), h.value hb]

end Binding.Keeps

namespace Frame

/-- The same names, with their bindings kept. -/
def Keeps (f f' : Frame) : Prop := ∀ name, Option.Rel Binding.Keeps (f.get? name) (f'.get? name)

/-- One new name with its binding, and all else kept. -/
structure Adds (name : Text) (b : Binding) (f f' : Frame) : Prop where
  fresh : f.get? name = none
  bound : f'.get? name = some b
  others : ∀ other, other ≠ name → Option.Rel Binding.Keeps (f.get? other) (f'.get? other)

/-- No name is lost, and the bindings of all names are kept. -/
def Grows (f f' : Frame) : Prop :=
  ∀ name b, f.get? name = some b → ∃ b', f'.get? name = some b' ∧ b.Keeps b'

theorem exists_of_rel {o o' : Option Binding} (h : Option.Rel Binding.Keeps o o') {b : Binding}
    (hb : o = some b) : ∃ b', o' = some b' ∧ b.Keeps b' := by
  cases h with
  | none => cases hb
  | some hkeeps =>
      cases hb
      exact ⟨_, rfl, hkeeps⟩

theorem Keeps.refl (f : Frame) : f.Keeps f := by
  intro name
  cases f.get? name with
  | none => exact .none
  | some b => exact .some (.refl b)

theorem Keeps.trans {f f' f'' : Frame} (h : f.Keeps f') (h' : f'.Keeps f'') : f.Keeps f'' := by
  intro name
  have hname := h name
  have hname' := h' name
  revert hname hname'
  generalize f.get? name = o, f'.get? name = o', f''.get? name = o''
  intro hname hname'
  cases hname with
  | none => exact hname'
  | some hb =>
      cases hname' with
      | some hb' => exact .some (hb.trans hb')

theorem Keeps.grows {f f' : Frame} (h : f.Keeps f') : f.Grows f' := by
  intro name b hb
  exact exists_of_rel (h name) hb

theorem Adds.grows {name : Text} {b : Binding} {f f' : Frame} (h : f.Adds name b f') : f.Grows f' := by
  intro other b' hb'
  have hne : other ≠ name := by
    rintro rfl
    rw [h.fresh] at hb'
    cases hb'
  exact exists_of_rel (h.others other hne) hb'

theorem Grows.refl (f : Frame) : f.Grows f := (Keeps.refl f).grows

theorem Grows.trans {f f' f'' : Frame} (h : f.Grows f') (h' : f'.Grows f'') : f.Grows f'' := by
  intro name b hb
  obtain ⟨b', hb', hkeeps⟩ := h name b hb
  obtain ⟨b'', hb'', hkeeps'⟩ := h' name b' hb'
  exact ⟨b'', hb'', hkeeps.trans hkeeps'⟩

theorem Keeps.define {f f' : Frame} (h : f.Keeps f') {name : Text} (hfresh : f.get? name = none)
    (b : Binding) : f.Adds name b (f'.define name b) := by
  refine ⟨hfresh, by simp, fun other hne => ?_⟩
  rw [get?_define, if_neg hne]
  exact h other

theorem keeps_setValue {f : Frame} {name : Text} {b : Binding} (hb : f.get? name = some b)
    (hmut : b.isMutable) (v : Value) : f.Keeps (f.setValue name v) := by
  intro other
  rw [get?_setValue]
  by_cases h : other = name
  · subst h
    rw [hb]
    refine .some ⟨by simp, fun himm => ?_⟩
    rw [himm] at hmut
    cases hmut
  · simpa [h] using Keeps.refl f other

end Frame

/-! ## Scopes -/

namespace Scope

/-- The same frames in the same order, each kept. -/
inductive Keeps : Scope → Scope → Prop
  | root {f f' : Frame} : f.Keeps f' → Keeps (root f) (root f')
  | nested {f f' : Frame} {outer outer' : Scope} :
      f.Keeps f' → Keeps outer outer' → Keeps (nested f outer) (nested f' outer')

/-- One new name in the innermost frame, and all else kept. -/
inductive Adds (name : Text) (b : Binding) : Scope → Scope → Prop
  | root {f f' : Frame} : f.Adds name b f' → Adds name b (root f) (root f')
  | nested {f f' : Frame} {outer outer' : Scope} :
      f.Adds name b f' → Keeps outer outer' → Adds name b (nested f outer) (nested f' outer')

/-- New names in the innermost frame, and all else kept. -/
inductive Grows : Scope → Scope → Prop
  | root {f f' : Frame} : f.Grows f' → Grows (root f) (root f')
  | nested {f f' : Frame} {outer outer' : Scope} :
      f.Grows f' → Keeps outer outer' → Grows (nested f outer) (nested f' outer')

theorem Keeps.refl (s : Scope) : s.Keeps s := by
  induction s with
  | root f => exact .root (.refl f)
  | nested f outer ih => exact .nested (.refl f) ih

theorem Keeps.trans {s s' s'' : Scope} (h : s.Keeps s') (h' : s'.Keeps s'') : s.Keeps s'' := by
  induction h generalizing s'' with
  | root hf =>
      cases h' with
      | root hf' => exact .root (hf.trans hf')
  | nested hf _ ih =>
      cases h' with
      | nested hf' houter' => exact .nested (hf.trans hf') (ih houter')

theorem Keeps.grows {s s' : Scope} (h : s.Keeps s') : s.Grows s' := by
  cases h with
  | root hf => exact .root hf.grows
  | nested hf houter => exact .nested hf.grows houter

theorem Adds.grows {name : Text} {b : Binding} {s s' : Scope} (h : s.Adds name b s') : s.Grows s' := by
  cases h with
  | root hf => exact .root hf.grows
  | nested hf houter => exact .nested hf.grows houter

theorem Grows.refl (s : Scope) : s.Grows s := (Keeps.refl s).grows

theorem Grows.trans {s s' s'' : Scope} (h : s.Grows s') (h' : s'.Grows s'') : s.Grows s'' := by
  cases h with
  | root hf =>
      cases h' with
      | root hf' => exact .root (hf.trans hf')
  | nested hf houter =>
      cases h' with
      | nested hf' houter' => exact .nested (hf.trans hf') (houter.trans houter')

/-- A block that is left has only changed what was there before it. -/
theorem Grows.leave {s s' : Scope} (h : s.enter.Grows s') : s.Keeps s'.leave := by
  cases h with
  | nested _ houter => exact houter

/-- A name that a scope binds is bound in a scope that keeps it, as mutable as before. -/
theorem Keeps.get? {s s' : Scope} (h : s.Keeps s') {name : Text} {b : Binding}
    (hb : s.get? name = some b) : ∃ b', s'.get? name = some b' ∧ b.Keeps b' := by
  induction h with
  | root hf => exact hf.grows name b hb
  | @nested f f' outer outer' hf _ ih =>
      have hname := hf name
      simp only [Scope.get?] at hb ⊢
      generalize f.get? name = o, f'.get? name = o' at hname hb ⊢
      cases hname with
      | none => exact ih hb
      | some hkeeps =>
          cases hb
          exact ⟨_, rfl, hkeeps⟩

theorem keeps_assign {s : Scope} {name : Text} {b : Binding} (hb : s.get? name = some b)
    (hmut : b.isMutable) (v : Value) : s.Keeps (s.assign name v) := by
  induction s with
  | root f => exact .root (Frame.keeps_setValue hb hmut v)
  | nested f outer ih =>
      simp only [Scope.get?] at hb
      by_cases hc : f.contains name
      · obtain ⟨b', hf⟩ := Option.isSome_iff_exists.1 hc
        rw [hf] at hb
        cases hb
        rw [assign, if_pos hc]
        exact .nested (Frame.keeps_setValue hf hmut v) (.refl outer)
      · have hf : f.get? name = none := Option.not_isSome_iff_eq_none.1 hc
        rw [hf] at hb
        rw [assign, if_neg hc]
        exact .nested (.refl f) (ih hb)

theorem Keeps.define {s s' : Scope} (h : s.Keeps s') {name : Text}
    (hfresh : s.frame.get? name = none) (b : Binding) : s.Adds name b (s'.define name b) := by
  cases h with
  | root hf => exact .root (hf.define hfresh b)
  | nested hf houter => exact .nested (hf.define hfresh b) houter

end Scope

end LetScript
