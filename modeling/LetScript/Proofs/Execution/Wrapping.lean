import LetScript.Proofs.Execution.Lockstep
import LetScript.Proofs.Execution.Scoping
import LetScript.Proofs.Scope.Places

/-!
# Statements in a block of their own

Statements that declare names which are new to the current frame do the same in a block of their own. Without
the block their names go into the current frame, with it into a frame inside that one: the one frame splits
into two, and no statement can tell.
-/

namespace LetScript

/-! ## One frame as two -/

/-- The frame `f` has been split: the bindings of the names in question are in `inner`, all others in
`outer`. -/
structure Frame.Splits (names : Text → Prop) (f inner outer : Frame) : Prop where
  inside : ∀ name, names name → inner.get? name = f.get? name ∧ outer.get? name = none
  outside : ∀ name, ¬ names name → inner.get? name = none ∧ outer.get? name = f.get? name

namespace Frame.Splits

variable {names : Text → Prop} {f inner outer : Frame} {name : Text}

theorem get? (h : f.Splits names inner outer) (name : Text) :
    f.get? name = (inner.get? name).or (outer.get? name) := by
  by_cases hname : names name
  · obtain ⟨hinner, houter⟩ := h.inside name hname
    simp [hinner, houter]
  · obtain ⟨hinner, houter⟩ := h.outside name hname
    simp [hinner, houter]

theorem contains (h : f.Splits names inner outer) (name : Text) :
    f.contains name = (inner.contains name || outer.contains name) := by
  simp [Frame.contains, h.get? name]

theorem inner_contains (h : f.Splits names inner outer) (hname : names name) :
    f.contains name = inner.contains name := contains_eq_of_get? (h.inside name hname).1.symm

theorem define (h : f.Splits names inner outer) (hname : names name) (b : Binding) :
    (f.define name b).Splits names (inner.define name b) outer := by
  refine ⟨fun other hother => ?_, fun other hother => ?_⟩
  · obtain ⟨hinner, houter⟩ := h.inside other hother
    simp [hinner, houter]
  · have hne : other ≠ name := fun heq => hother (heq ▸ hname)
    simpa [hne] using h.outside other hother

theorem setValue_inner (h : f.Splits names inner outer) (hname : inner.contains name) (v : Value) :
    (f.setValue name v).Splits names (inner.setValue name v) outer := by
  refine ⟨fun other hother => ?_, fun other hother => ?_⟩
  · obtain ⟨hinner, houter⟩ := h.inside other hother
    simp [hinner, houter]
  · obtain ⟨hinner, houter⟩ := h.outside other hother
    have hne : other ≠ name := by
      rintro rfl
      simp [Frame.contains, hinner] at hname
    simp [hinner, houter, hne]

theorem setValue_outer (h : f.Splits names inner outer) (hname : inner.contains name = false) (v : Value) :
    (f.setValue name v).Splits names inner (outer.setValue name v) := by
  refine ⟨fun other hother => ?_, fun other hother => ?_⟩
  · obtain ⟨hinner, houter⟩ := h.inside other hother
    by_cases heq : other = name
    · subst heq
      rw [contains_eq_false] at hname
      simp [← hinner, houter, hname]
    · simp [hinner, houter, heq]
  · obtain ⟨hinner, houter⟩ := h.outside other hother
    simp [hinner, houter]

end Frame.Splits

/-! ## One scope as another with a block -/

/-- The second scope is the first one with a frame split, which is so many frames out. -/
inductive Scope.Splits (names : Text → Prop) : Nat → Scope → Scope → Prop
  | root {f inner outer : Frame} :
      f.Splits names inner outer → Splits names 0 (.root f) (.nested inner (.root outer))
  | nested {f inner outer : Frame} (rest : Scope) :
      f.Splits names inner outer → Splits names 0 (.nested f rest) (.nested inner (.nested outer rest))
  | inside {k : Nat} {s s' : Scope} (f : Frame) :
      Splits names k s s' → Splits names (k + 1) (.nested f s) (.nested f s')

namespace Scope.Splits

variable {names : Text → Prop} {k : Nat} {s s' : Scope} {name : Text}

theorem get? (h : s.Splits names k s') (name : Text) : s.get? name = s'.get? name := by
  induction h with
  | @root f inner outer hf =>
      simp only [Scope.get?, hf.get? name]
      cases inner.get? name <;> rfl
  | @nested f inner outer rest hf =>
      simp only [Scope.get?, hf.get? name]
      cases inner.get? name <;> rfl
  | inside f _ ih => simp only [Scope.get?, ih]

theorem contains (h : s.Splits names k s') (hname : k = 0 → names name) :
    s.frame.contains name = s'.frame.contains name := by
  cases h with
  | root hf => exact hf.inner_contains (hname rfl)
  | nested rest hf => exact hf.inner_contains (hname rfl)
  | inside f _ => rfl

theorem assign (h : s.Splits names k s') (name : Text) (v : Value) :
    (s.assign name v).Splits names k (s'.assign name v) := by
  induction h with
  | @root f inner outer hf =>
      by_cases hinner : inner.contains name
      · simp only [Scope.assign, hinner, ↓reduceIte]
        exact .root (hf.setValue_inner hinner v)
      · simp only [Scope.assign, hinner, Bool.false_eq_true, ↓reduceIte]
        exact .root (hf.setValue_outer (by simpa using hinner) v)
  | @nested f inner outer rest hf =>
      by_cases hinner : inner.contains name
      · simp only [Scope.assign, hf.contains, hinner, Bool.true_or, ↓reduceIte]
        exact .nested rest (hf.setValue_inner hinner v)
      · by_cases houter : outer.contains name
        · simp only [Scope.assign, hf.contains, hinner, houter, Bool.or_true, Bool.false_eq_true, ↓reduceIte]
          exact .nested rest (hf.setValue_outer (by simpa using hinner) v)
        · simp only [Scope.assign, hf.contains, hinner, houter, Bool.or_false, Bool.false_eq_true, ↓reduceIte]
          exact .nested _ hf
  | inside f h ih =>
      simp only [Scope.assign]
      split
      · exact .inside _ h
      · exact .inside f ih

theorem define (h : s.Splits names k s') (hname : k = 0 → names name) (b : Binding) :
    (s.define name b).Splits names k (s'.define name b) := by
  cases h with
  | root hf => exact .root (hf.define (hname rfl) b)
  | nested rest hf => exact .nested rest (hf.define (hname rfl) b)
  | inside f h => exact .inside _ h

theorem leave (h : s.Splits names (k + 1) s') : s.leave.Splits names k s'.leave := by
  cases h with
  | inside f h => exact h

/-- A block that has just been opened splits a frame if the frame has none of the names. -/
theorem of_fresh (h : ∀ name, names name → s.frame.get? name = none) : s.Splits names 0 s.enter := by
  have hframe : s.frame.Splits names .empty s.frame :=
    ⟨fun name hname => ⟨(h name hname).symm, h name hname⟩, fun _ _ => ⟨rfl, rfl⟩⟩
  cases s with
  | root f => exact .root hframe
  | nested f rest => exact .nested rest hframe

/-- Outside the block there is the same, but for the names in the frame around it. -/
theorem binding?_leave (h : s.Splits names 0 s') {j : Nat} (hname : j = 0 → ¬ names name) :
    s'.leave.binding? j name = s.binding? j name := by
  cases h with
  | root hf =>
      cases j with
      | zero => exact (hf.outside name (hname rfl)).2
      | succ j => rfl
  | nested rest hf =>
      cases j with
      | zero => exact (hf.outside name (hname rfl)).2
      | succ j => rfl

end Scope.Splits

/-- Scopes of which one has a frame split correspond for all programs that declare, in that frame, only
names that go into the inner part. -/
def Scope.splitting (names : Text → Prop) : Scope.Correspondence where
  Holds := Scope.Splits names
  Uses _ := True
  Declares k name := k = 0 → names name
  get? h _ := h.get? _
  contains h hname := h.contains hname
  assign v h _ := h.assign _ v
  define b h hname := h.define hname b
  enter h := .inside .empty h
  leave h := h.leave

/-! ## Statements and their block -/

/-- The name that a statement declares. -/
def Stmt.declared? : Stmt → Option Text
  | .declare _ name _ _ => some name.lexeme
  | _ => none

section

variable {names : Text → Prop}

mutual

theorem Stmt.within_splitting (stmt : Stmt) (k : Nat) : stmt.Within (Scope.splitting names) (k + 1) := by
  match stmt with
  | .expr _ _ | .println _ _ => exact fun _ _ => trivial
  | .declare _ _ _ _ => exact ⟨fun h => absurd h (Nat.succ_ne_zero k), fun _ _ => trivial⟩
  | .block _ body => exact Stmt.allWithin_splitting body (k + 1)
  | .absent | .foreign _ _ => exact trivial

theorem Stmt.allWithin_splitting (program : List Stmt) (k : Nat) :
    Stmt.AllWithin (Scope.splitting names) (k + 1) program := by
  match program with
  | [] => exact trivial
  | stmt :: rest => exact ⟨Stmt.within_splitting stmt k, Stmt.allWithin_splitting rest k⟩

end

theorem Stmt.within_splitting_zero {stmt : Stmt} (h : ∀ name, stmt.declared? = some name → names name) :
    stmt.Within (Scope.splitting names) 0 := by
  match stmt with
  | .expr _ _ | .println _ _ => exact fun _ _ => trivial
  | .declare _ name _ _ => exact ⟨fun _ => h name.lexeme rfl, fun _ _ => trivial⟩
  | .block _ body => exact Stmt.allWithin_splitting body 0
  | .absent | .foreign _ _ => exact trivial

theorem Stmt.allWithin_splitting_zero {program : List Stmt}
    (h : ∀ name ∈ program.filterMap Stmt.declared?, names name) :
    Stmt.AllWithin (Scope.splitting names) 0 program := by
  induction program with
  | nil => exact trivial
  | cons stmt rest ih =>
      refine ⟨Stmt.within_splitting_zero fun name hname => ?_, ih fun name hname => ?_⟩
      · exact h name (List.mem_filterMap.2 ⟨stmt, List.mem_cons_self, hname⟩)
      · obtain ⟨other, hmem, hother⟩ := List.mem_filterMap.1 hname
        exact h name (List.mem_filterMap.2 ⟨other, List.mem_cons_of_mem _ hmem, hother⟩)

/-- Without the block the same happens as inside it, to a scope of which a frame is split by the block. -/
theorem Stmt.exec_block_of_fresh (c : Context) {body : List Stmt}
    (hbody : ∀ name ∈ body.filterMap Stmt.declared?, names name) {st : State}
    (hfresh : ∀ name, names name → st.scope.frame.get? name = none) :
    ((Stmt.block c body).exec st).1 = (Stmt.execAll body st).1.map (fun _ => Value.nil) ∧
    ((Stmt.block c body).exec st).2.sink = (Stmt.execAll body st).2.sink ∧
    ∃ inside, (Stmt.execAll body st).2.scope.Splits names 0 inside ∧
      ((Stmt.block c body).exec st).2.scope = inside.leave := by
  let C := Scope.splitting names
  have hsplit : C.Holds 0 st.scope (st.withScope st.scope.enter).scope := .of_fresh hfresh
  have hwithin : Stmt.AllWithin C 0 body := Stmt.allWithin_splitting_zero hbody
  have hruns : C.RunsInStep 0 st (st.withScope st.scope.enter) (Stmt.execAll body st)
      (Stmt.execFrom .nil body (st.withScope st.scope.enter)) :=
    C.execFrom hwithin .nil hsplit (.refl _)
  simp only [Stmt.exec]
  generalize Stmt.execAll body st = x, Stmt.execFrom .nil body (st.withScope st.scope.enter) = y at hruns ⊢
  cases hruns with
  | @intro result after after' hafter hwrites =>
      cases result with
      | error d => exact ⟨rfl, hwrites.eq.symm, after'.scope, hafter, rfl⟩
      | ok v => exact ⟨rfl, hwrites.eq.symm, after'.scope, hafter, rfl⟩

end

/-- Statements whose own declarations are of names that the current frame does not have can be put into a
block. The block prints the same and fails for the same fault, or succeeds as they do; all bindings that there
were come out the same, and after the block no frame has another name than before. -/
theorem block_is_transparent_for_fresh_names (c : Context) (body : List Stmt) (st : State)
    (hfresh : ∀ name ∈ body.filterMap Stmt.declared?, st.scope.frame.contains name = false) :
    let plain := Stmt.execAll body st
    let wrapped := (Stmt.block c body).exec st
    wrapped.1 = plain.1.map (fun _ => Value.nil) ∧
    wrapped.2.sink = plain.2.sink ∧
    (∀ k name b, st.scope.binding? k name = some b →
      wrapped.2.scope.binding? k name = plain.2.scope.binding? k name) ∧
    wrapped.2.scope.depth = st.scope.depth ∧
    ∀ k name, (wrapped.2.scope.binding? k name).isSome = (st.scope.binding? k name).isSome := by
  intro plain wrapped
  have hnone : ∀ name, name ∈ body.filterMap Stmt.declared? → st.scope.frame.get? name = none :=
    fun name hname => Frame.contains_eq_false.1 (hfresh name hname)
  have hkeeps : st.scope.Keeps wrapped.2.scope := Stmt.exec_scopeEffect (.block c body) st
  obtain ⟨hresult, hsink, inside, hsplit, hleave⟩ := Stmt.exec_block_of_fresh c (fun _ h => h) hnone
  refine ⟨hresult, hsink, fun k name b hb => ?_, hkeeps.depth, hkeeps.binding?_isSome⟩
  -- a binding that the current frame already has is of another name than those declared
  have hold : k = 0 → name ∉ body.filterMap Stmt.declared? := by
    rintro rfl hname
    rw [Scope.binding?_zero, hnone name hname] at hb
    cases hb
  rw [← hsplit.binding?_leave hold]
  exact congrArg (·.binding? k name) hleave

/-- Around the statements there is a mutable `x`: they assign to it, copy it to an `x` of their own, print that
and then fail to assign to it. -/
theorem block_is_transparent_for_fresh_names_shadowed :
    let c : Context := .atLine [] 1
    let x : Token := ⟨.identifier, Text.ofString "x", .none, 1⟩
    let store (word : Keyword) : Stmt :=
      .expr c (.assign c x (.literal c ⟨.keyword word, word.spelling, .none, 1⟩))
    let body : List Stmt := [store .trueKw, .declare c x false (.reference c x), .println c (.reference c x),
      store .falseKw]
    let st : State := ⟨Scope.enter (.root (Frame.empty.define x.lexeme ⟨true, .nil⟩)), .unlimited⟩
    let plain := Stmt.execAll body st
    let wrapped := (Stmt.block c body).exec st
    plain.1 = .error ⟨c, .immutable x.lexeme⟩ ∧ plain.2.sink.writes = [Text.ofString "true\n"] ∧
    plain.2.scope.binding? 1 x.lexeme = some ⟨true, .ofBool true⟩ ∧
    wrapped.1 = plain.1.map (fun _ => Value.nil) ∧
    wrapped.2.sink = plain.2.sink ∧
    (∀ k name b, st.scope.binding? k name = some b →
      wrapped.2.scope.binding? k name = plain.2.scope.binding? k name) ∧
    wrapped.2.scope.depth = st.scope.depth ∧
    ∀ k name, (wrapped.2.scope.binding? k name).isSome = (st.scope.binding? k name).isSome := by
  intro c x store body st plain wrapped
  have hfresh : ∀ name ∈ body.filterMap Stmt.declared?, st.scope.frame.contains name = false := fun _ _ => rfl
  have hwrites : plain.2.sink.writes = [Text.ofString "true\n"] := by decide +kernel
  exact ⟨rfl, hwrites, rfl, block_is_transparent_for_fresh_names c body st hfresh⟩

end LetScript
