import LetScript.Proofs.Scope.Keeping

/-!
# Bindings by place

A binding stands in a scope at a place: so many frames out, under its name. The operations on scopes are
described by what they do to each place. Two scopes agree on a name if they bind it alike at all places.
-/

namespace LetScript

theorem Frame.contains_eq_false {f : Frame} {name : Text} : f.contains name = false ↔ f.get? name = none := by
  simp [contains]

theorem Frame.contains_eq_of_get? {f f' : Frame} {name : Text} (h : f.get? name = f'.get? name) :
    f.contains name = f'.contains name := by
  rw [contains, contains, h]

@[simp] theorem Frame.contains_setValue (f : Frame) (name other : Text) (v : Value) :
    (f.setValue name v).contains other = f.contains other := by
  simp [contains]

namespace Scope

/-- The binding of a name in the frame that is so many frames out. -/
def binding? : Scope → Nat → Text → Option Binding
  | root f, 0, name => f.get? name
  | root _, _ + 1, _ => none
  | nested f _, 0, name => f.get? name
  | nested _ outer, k + 1, name => outer.binding? k name

/-- How many frames out the nearest binding of a name is. -/
def holder? : Scope → Text → Option Nat
  | root f, name => if f.contains name then some 0 else none
  | nested f outer, name => if f.contains name then some 0 else (outer.holder? name).map (· + 1)

variable {s s' : Scope} {name : Text}

/-! ## Places and the nearest binding -/

theorem binding?_zero (s : Scope) (name : Text) : s.binding? 0 name = s.frame.get? name := by
  cases s <;> rfl

theorem get?_eq_binding? (s : Scope) (name : Text) :
    s.get? name = (s.holder? name).bind (s.binding? · name) := by
  induction s with
  | root f =>
      cases hf : f.get? name <;> simp [get?, holder?, binding?, Frame.contains, hf]
  | nested f outer ih =>
      cases hf : f.get? name with
      | some b => simp [get?, holder?, binding?, Frame.contains, hf]
      | none => simpa [get?, holder?, Frame.contains, hf, Option.bind_map, Function.comp_def, binding?] using ih

theorem holder?_eq_of_binding? (hdepth : s.depth = s'.depth)
    (h : ∀ k, s.binding? k name = s'.binding? k name) : s.holder? name = s'.holder? name := by
  induction s generalizing s' with
  | root f =>
      cases s' with
      | nested => simp [depth] at hdepth
      | root f' =>
          have hzero : f.contains name = f'.contains name := Frame.contains_eq_of_get? (h 0)
          rw [holder?, holder?, hzero]
  | nested f outer ih =>
      cases s' with
      | root => simp [depth] at hdepth
      | nested f' outer' =>
          have hzero : f.contains name = f'.contains name := Frame.contains_eq_of_get? (h 0)
          have houter := ih (by simpa [depth] using hdepth) fun k => h (k + 1)
          rw [holder?, holder?, hzero, houter]

/-! ## Operations -/

@[simp] theorem depth_assign (s : Scope) (name : Text) (v : Value) : (s.assign name v).depth = s.depth := by
  induction s with
  | root f => rfl
  | nested f outer ih =>
      rw [assign]
      split
      · rfl
      · simp [depth, ih]

@[simp] theorem depth_define (s : Scope) (name : Text) (b : Binding) : (s.define name b).depth = s.depth := by
  cases s <;> rfl

@[simp] theorem holder?_assign (s : Scope) (name other : Text) (v : Value) :
    (s.assign name v).holder? other = s.holder? other := by
  induction s with
  | root f => simp [assign, holder?]
  | nested f outer ih =>
      rw [assign]
      split
      · simp [holder?]
      · simp [holder?, ih]

/-- An assignment reaches the nearest binding of the name, and no other place. -/
theorem binding?_assign (s : Scope) (name other : Text) (v : Value) (k : Nat) :
    (s.assign name v).binding? k other =
      if other = name ∧ s.holder? name = some k then (s.binding? k other).map ({ · with value := v })
      else s.binding? k other := by
  induction s generalizing k with
  | root f =>
      cases k with
      | succ k => simp [assign, binding?]
      | zero =>
          by_cases ho : other = name
          · subst ho
            cases hf : f.get? other <;> simp [assign, binding?, holder?, Frame.contains, hf]
          · simp [assign, binding?, ho]
  | nested f outer ih =>
      by_cases hc : f.contains name
      · rw [assign, if_pos hc]
        cases k with
        | succ k => simp [binding?, holder?, hc]
        | zero =>
            by_cases ho : other = name
            · simp [binding?, holder?, hc, ho]
            · simp [binding?, ho]
      · rw [assign, if_neg hc]
        cases k with
        | zero => simp [binding?, holder?, hc]
        | succ k => simp [binding?, holder?, hc, ih]

theorem binding?_define (s : Scope) (name other : Text) (b : Binding) (k : Nat) :
    (s.define name b).binding? k other =
      if k = 0 ∧ other = name then some b else s.binding? k other := by
  cases s <;> cases k <;> simp [define, binding?]

theorem Keeps.depth (h : s.Keeps s') : s'.depth = s.depth := by
  induction h with
  | root => rfl
  | nested _ _ ih => simp [Scope.depth, ih]

theorem Keeps.binding?_isSome (h : s.Keeps s') (k : Nat) (name : Text) :
    (s'.binding? k name).isSome = (s.binding? k name).isSome := by
  have hframe : ∀ {f f' : Frame}, f.Keeps f' → (f'.get? name).isSome = (f.get? name).isSome := by
    intro f f' hf
    have hname := hf name
    generalize f.get? name = o, f'.get? name = o' at hname ⊢
    cases hname <;> rfl
  induction h generalizing k with
  | root hf =>
      cases k with
      | zero => exact hframe hf
      | succ k => rfl
  | nested hf _ ih =>
      cases k with
      | zero => exact hframe hf
      | succ k => exact ih k

/-! ## Agreement -/

/-- The two scopes have as many frames, and frame by frame the same bindings of the names. -/
structure AgreeOn (names : Text → Prop) (s s' : Scope) : Prop where
  depth : s.depth = s'.depth
  binding? : ∀ k name, names name → s.binding? k name = s'.binding? k name

namespace AgreeOn

variable {names : Text → Prop} {s'' : Scope}

theorem refl (s : Scope) : s.AgreeOn names s := ⟨rfl, fun _ _ _ => rfl⟩

theorem trans (h : s.AgreeOn names s') (h' : s'.AgreeOn names s'') : s.AgreeOn names s'' :=
  ⟨h.depth.trans h'.depth, fun k name hname => (h.binding? k name hname).trans (h'.binding? k name hname)⟩

theorem holder? (h : s.AgreeOn names s') (hname : names name) : s.holder? name = s'.holder? name :=
  holder?_eq_of_binding? h.depth fun k => h.binding? k name hname

theorem get? (h : s.AgreeOn names s') (hname : names name) : s.get? name = s'.get? name := by
  rw [get?_eq_binding?, get?_eq_binding?, h.holder? hname]
  congr 1
  funext k
  exact h.binding? k name hname

theorem contains (h : s.AgreeOn names s') (hname : names name) :
    s.frame.contains name = s'.frame.contains name := by
  have hzero := h.binding? 0 name hname
  rw [binding?_zero, binding?_zero] at hzero
  exact Frame.contains_eq_of_get? hzero

theorem assign (h : s.AgreeOn names s') (hname : names name) (v : Value) :
    (s.assign name v).AgreeOn names (s'.assign name v) := by
  refine ⟨by simpa using h.depth, fun k other hother => ?_⟩
  rw [binding?_assign, binding?_assign, h.holder? hname, h.binding? k other hother]

theorem define (h : s.AgreeOn names s') (name : Text) (b : Binding) :
    (s.define name b).AgreeOn names (s'.define name b) := by
  refine ⟨by simpa using h.depth, fun k other hother => ?_⟩
  rw [binding?_define, binding?_define, h.binding? k other hother]

theorem enter (h : s.AgreeOn names s') : s.enter.AgreeOn names s'.enter := by
  refine ⟨by simp [Scope.enter, Scope.depth, h.depth], fun k other hother => ?_⟩
  cases k with
  | zero => rfl
  | succ k => exact h.binding? k other hother

theorem leave (h : s.AgreeOn names s') : s.leave.AgreeOn names s'.leave := by
  cases s with
  | root f =>
      cases s' with
      | root f' => exact h
      | nested f' outer' => exact absurd h.depth (by simp [Scope.depth])
  | nested f outer =>
      cases s' with
      | root f' => exact absurd h.depth (by simp [Scope.depth])
      | nested f' outer' =>
          exact ⟨by simpa [Scope.leave, Scope.depth] using h.depth, fun k other => h.binding? (k + 1) other⟩

/-- An assignment to another name changes nothing. -/
theorem of_assign (s : Scope) (hname : ¬ names name) (v : Value) : s.AgreeOn names (s.assign name v) := by
  refine ⟨by simp, fun k other hother => ?_⟩
  have hne : other ≠ name := fun h => hname (h ▸ hother)
  rw [binding?_assign, if_neg (by simp [hne])]

theorem of_define (s : Scope) (hname : ¬ names name) (b : Binding) : s.AgreeOn names (s.define name b) := by
  refine ⟨by simp, fun k other hother => ?_⟩
  have hne : other ≠ name := fun h => hname (h ▸ hother)
  rw [binding?_define, if_neg (by simp [hne])]

end AgreeOn

end Scope

end LetScript
