import LetScript.Proofs.Scope.Ancestry

/-!
# Scopes as ways out of a forest

The frames from one frame of a forest to its root are a scope. What is done to the forest at that frame is
done to the scope, so code that opens and closes blocks, declares and assigns cannot tell the two apart.
-/

namespace LetScript

/-! ## The innermost frame -/

/-- The scope with another innermost frame. -/
def Scope.modifyFrame (change : Frame → Frame) : Scope → Scope
  | root f => root (change f)
  | nested f outer => nested (change f) outer

theorem Scope.define_eq_modifyFrame (s : Scope) (name : Text) (b : Binding) :
    s.define name b = s.modifyFrame (·.define name b) := by
  cases s <;> rfl

theorem Scope.assign_of_contains {s : Scope} {name : Text} (h : s.frame.contains name) (v : Value) :
    s.assign name v = s.modifyFrame (·.setValue name v) := by
  cases s with
  | root f => rfl
  | nested f outer => exact if_pos h

theorem Scope.assign_of_not_contains {f : Frame} {name : Text} (h : ¬ f.contains name) (outer : Scope) (v : Value) :
    (nested f outer).assign name v = nested f (outer.assign name v) := if_neg h

/-! ## Names that are not bound -/

theorem Frame.setValue_eq_self {f : Frame} {name : Text} (h : f.get? name = none) (v : Value) :
    f.setValue name v = f := by
  have hentries : ∀ e ∈ f.entries, e.1 ≠ name := by
    intro e he hname
    have hmem : name ∈ f.names := List.mem_map.2 ⟨e, he, hname⟩
    rw [mem_names_iff, contains, h] at hmem
    cases hmem
  cases f with
  | mk entries sorted =>
      simp only [setValue, mk.injEq]
      refine (List.map_congr_left fun e he => ?_).trans (List.map_id entries)
      rw [if_neg (hentries e he)]
      rfl

theorem Scope.assign_eq_self {s : Scope} {name : Text} (h : s.get? name = none) (v : Value) :
    s.assign name v = s := by
  induction s with
  | root f => rw [assign, Frame.setValue_eq_self h]
  | nested f outer ih =>
      cases hf : f.get? name with
      | some b => simp [get?, hf] at h
      | none =>
          have houter : outer.get? name = none := by simpa [get?, hf] using h
          rw [assign_of_not_contains (by simp [Frame.contains, hf]), ih houter]

namespace Forest

/-! ## The scope of a frame -/

/-- The scope of code that runs in a frame: this frame, inside the scope of its parent. -/
def scope (t : Forest) (i : Nat) : Scope :=
  match _h : t.parent? i with
  | none => .root (t.frame i)
  | some p => .nested (t.frame i) (t.scope p)
termination_by i
decreasing_by exact lt_of_parent? _h

variable {t : Forest} {i j p : Nat} {name : Text}

theorem scope_of_root (h : t.parent? i = none) : t.scope i = .root (t.frame i) := by
  rw [scope]
  split <;> simp_all

theorem scope_of_child (h : t.parent? i = some p) : t.scope i = .nested (t.frame i) (t.scope p) := by
  rw [scope]
  split <;> simp_all

theorem frame_scope (t : Forest) (i : Nat) : (t.scope i).frame = t.frame i := by
  cases hp : t.parent? i with
  | none => rw [scope_of_root hp, Scope.frame]
  | some p => rw [scope_of_child hp, Scope.frame]

/-- Forests that agree on a frame and on all older ones give it the same scope. -/
theorem scope_congr {t' : Forest} (hparent : ∀ j ≤ i, t'.parent? j = t.parent? j)
    (hframe : ∀ j ≤ i, t'.frame j = t.frame j) : t'.scope i = t.scope i := by
  induction i using t.induct with
  | h i ih =>
      cases hp : t.parent? i with
      | none =>
          rw [scope_of_root hp, scope_of_root ((hparent i (Nat.le_refl i)).trans hp), hframe i (Nat.le_refl i)]
      | some p =>
          have hlt := lt_of_parent? hp
          rw [scope_of_child hp, scope_of_child ((hparent i (Nat.le_refl i)).trans hp),
            hframe i (Nat.le_refl i), ih p hp (fun j hj => hparent j (by omega)) fun j hj => hframe j (by omega)]

/-- What is done to a frame is not seen from the older ones. -/
theorem scope_modify_of_lt (h : i < j) (change : Frame → Frame) : (t.modify j change).scope i = t.scope i :=
  scope_congr (fun k _ => t.parent?_modify j change k) fun k hk => frame_modify_ne (by omega) change

theorem scope_modify_self (h : i < t.nodes.length) (change : Frame → Frame) :
    (t.modify i change).scope i = (t.scope i).modifyFrame change := by
  have hparent := t.parent?_modify i change i
  have hframe := frame_modify_self h change
  cases hp : t.parent? i with
  | none => rw [scope_of_root (hparent.trans hp), scope_of_root hp, hframe, Scope.modifyFrame]
  | some p =>
      rw [scope_of_child (hparent.trans hp), scope_of_child hp, hframe, scope_modify_of_lt (lt_of_parent? hp),
        Scope.modifyFrame]

/-! ## Operations -/

theorem get?_scope (t : Forest) (i : Nat) (name : Text) : (t.scope i).get? name = t.get? i name := by
  induction i using t.induct with
  | h i ih =>
      rw [get?_eq]
      cases hp : t.parent? i with
      | none => simp [scope_of_root hp, Scope.get?]
      | some p =>
          rw [scope_of_child hp, Scope.get?, ih p hp]
          cases (t.frame i).get? name <;> rfl

theorem scope_define (h : i < t.nodes.length) (name : Text) (b : Binding) :
    (t.define i name b).scope i = (t.scope i).define name b := by
  rw [define, scope_modify_self h, Scope.define_eq_modifyFrame]

/-- To store into the nearest frame that holds a name is to assign to the name. -/
theorem scope_modify_holder (h : t.holder? i name = some j) (v : Value) :
    (t.modify j (·.setValue name v)).scope i = (t.scope i).assign name v := by
  induction i using t.induct with
  | h i ih =>
      have hholds : (t.frame j).contains name := (holder?_eq_some_iff.1 h).2
      rw [holder?_eq] at h
      by_cases hi : t.contains i name
      · rw [if_pos hi] at h
        obtain rfl : i = j := Option.some.inj h
        obtain ⟨b, hb⟩ := Option.isSome_iff_exists.1 hholds
        rw [scope_modify_self (lt_of_get? hb), Scope.assign_of_contains (by rwa [frame_scope])]
      · rw [if_neg hi] at h
        obtain ⟨p, hp, hj⟩ := Option.bind_eq_some_iff.1 h
        have hne : i ≠ j := by
          rintro rfl
          exact hi hholds
        rw [scope_of_child ((t.parent?_modify j _ i).trans hp), scope_of_child hp, frame_modify_ne hne, ih p hp hj,
          Scope.assign_of_not_contains hi]

theorem scope_assign (t : Forest) (i : Nat) (name : Text) (v : Value) :
    ((t.assign? i name v).getD t).scope i = (t.scope i).assign name v := by
  cases hb : t.get? i name with
  | none => rw [assign?_eq_none hb, Option.getD_none, Scope.assign_eq_self ((t.get?_scope i name).trans hb)]
  | some b =>
      rw [get?] at hb
      obtain ⟨j, hj, -⟩ := Option.bind_eq_some_iff.1 hb
      rw [assign?, hj, Option.map_some, Option.getD_some, scope_modify_holder hj]

theorem scope_addChild (h : i < t.nodes.length) : (t.addChild i).scope t.nodes.length = (t.scope i).enter := by
  have hadds := t.adds_addChild i
  rw [if_pos h] at hadds
  have hold : (t.addChild i).scope i = t.scope i :=
    scope_congr (fun j hj => hadds.parent?_old j (by omega)) fun j _ => hadds.frame j
  rw [scope_of_child hadds.parent?_new, hadds.frame, frame_of_le (Nat.le_refl _), hold, Scope.enter]

end Forest

/-! ## Runs -/

/-- What running code does to the names. -/
inductive Scope.Op where
  | enter
  | leave
  | define (name : Text) (b : Binding)
  | assign (name : Text) (v : Value)

/-- The scope after an operation. -/
def Scope.Op.perform : Scope.Op → Scope → Scope
  | enter, s => s.enter
  | leave, s => s.leave
  | define name b, s => s.define name b
  | assign name v, s => s.assign name v

/-- A forest, and the frame of it in which code runs. -/
structure Forest.Location where
  forest : Forest
  frame : Nat
  inUse : frame < forest.nodes.length

namespace Forest.Location

/-- The scope of the code. -/
def scope (l : Location) : Scope := l.forest.scope l.frame

/-- The location after an operation. A block gets a frame of its own, which stays in the forest when the code
goes back to the frame around it. -/
def perform (l : Location) : Scope.Op → Location
  | .enter => ⟨l.forest.addChild l.frame, l.forest.nodes.length, by simp [addChild]⟩
  | .leave =>
    match h : l.forest.parent? l.frame with
    | none => l
    | some p => ⟨l.forest, p, Nat.lt_trans (lt_of_parent? h) l.inUse⟩
  | .define name b => ⟨l.forest.define l.frame name b, l.frame, by simp [define, modify, l.inUse]⟩
  | .assign name v =>
    ⟨(l.forest.assign? l.frame name v).getD l.forest, l.frame, by
      rw [assign?]
      cases l.forest.holder? l.frame name <;> simp [modify, l.inUse]⟩

/-- One operation does the same to the forest, seen from the frame, as to the scope. -/
theorem scope_perform (l : Location) (op : Scope.Op) : (l.perform op).scope = op.perform l.scope := by
  cases op with
  | enter => exact scope_addChild l.inUse
  | leave =>
      simp only [perform, Scope.Op.perform, scope]
      split
      · rename_i hp
        rw [scope_of_root hp, Scope.leave]
      · rename_i p hp
        rw [scope_of_child hp, Scope.leave]
  | define name b => exact scope_define l.inUse name b
  | assign name v => exact l.forest.scope_assign l.frame name v

/-- Code that starts in a frame finds in the forest, after whatever it has done, the bindings that it finds in
the scope. -/
theorem get?_foldl_perform (l : Location) (ops : List Scope.Op) (name : Text) :
    (ops.foldl perform l).forest.get? (ops.foldl perform l).frame name =
      (ops.foldl (fun s op => op.perform s) l.scope).get? name := by
  have hrun : (ops.foldl perform l).scope = ops.foldl (fun s op => op.perform s) l.scope := by
    induction ops generalizing l with
    | nil => rfl
    | cons op rest ih => rw [List.foldl_cons, List.foldl_cons, ih, scope_perform]
  rw [← hrun, scope, get?_scope]

end Forest.Location

end LetScript
