import Mathlib.Data.List.Induction
import Mathlib.Logic.Relation
import LetScript.Proofs.Scope.Keeping
import LetScript.Scope.Forest

/-!
# Names in a forest of frames

A frame of a forest sees the nearest binding of a name on its way out. A store into one frame is seen, under its
name, by the frames from which the way to that frame is clear of the name, and by no others.
-/

namespace LetScript

theorem Frame.mem_names_iff {f : Frame} {name : Text} : name ∈ f.names ↔ f.contains name := by
  rw [names, contains, get?]
  induction f.entries with
  | nil => simp
  | cons x rest ih =>
      rw [lookup_cons_eq, List.map_cons, List.mem_cons, ih]
      by_cases h : name = x.1 <;> simp [h]

namespace Forest

/-! ## Ways out -/

/-- The second frame is the first one, or is around it. -/
def Around (t : Forest) : Nat → Nat → Prop := Relation.ReflTransGen fun i p => t.parent? i = some p

/-- The second frame is the first one or is around it, and no frame on the way out to it holds the name. -/
def Sees (t : Forest) (name : Text) : Nat → Nat → Prop :=
  Relation.ReflTransGen fun i p => t.contains i name = false ∧ t.parent? i = some p

variable {t t' : Forest} {name : Text}

theorem Sees.refl (t : Forest) (name : Text) (i : Nat) : t.Sees name i i := Relation.ReflTransGen.refl

theorem Sees.outward {i p j : Nat} (hi : t.contains i name = false) (hp : t.parent? i = some p)
    (h : t.Sees name p j) : t.Sees name i j := Relation.ReflTransGen.head ⟨hi, hp⟩ h

theorem path_eq (t : Forest) (i : Nat) : t.path i = i :: ((t.parent? i).map t.path).getD [] := by
  rw [path]
  split <;> simp_all

theorem holder?_eq (t : Forest) (i : Nat) (name : Text) :
    t.holder? i name = if t.contains i name then some i else (t.parent? i).bind (t.holder? · name) := by
  rw [holder?, path_eq, List.find?_cons, contains]
  cases (t.frame i).contains name with
  | true => rfl
  | false => cases t.parent? i <;> rfl

theorem get?_eq (t : Forest) (i : Nat) (name : Text) :
    t.get? i name = ((t.frame i).get? name).or ((t.parent? i).bind (t.get? · name)) := by
  rw [get?, holder?_eq, contains, Frame.contains]
  cases hb : (t.frame i).get? name with
  | some b => simp [hb]
  | none => cases t.parent? i <;> simp [get?]

/-- Frames have older frames around them, so what passes from a parent to its children holds everywhere. -/
theorem induct {P : Nat → Prop} (t : Forest) (h : ∀ i, (∀ p, t.parent? i = some p → P p) → P i) (i : Nat) :
    P i := by
  induction i using Nat.strongRecOn with
  | ind i ih => exact h i fun p hp => ih p (lt_of_parent? hp)

theorem holder?_eq_some_iff {i j : Nat} :
    t.holder? i name = some j ↔ t.Sees name i j ∧ t.contains j name := by
  constructor
  · induction i using t.induct with
    | h i ih =>
        rw [holder?_eq]
        split
        · rename_i hi
          intro h
          cases h
          exact ⟨.refl t name _, hi⟩
        · rename_i hi
          intro h
          obtain ⟨p, hp, hj⟩ := Option.bind_eq_some_iff.1 h
          obtain ⟨hsees, hholds⟩ := ih p hp hj
          exact ⟨.outward (by simpa using hi) hp hsees, hholds⟩
  · rintro ⟨hsees, hholds⟩
    induction hsees using Relation.ReflTransGen.head_induction_on with
    | refl => rw [holder?_eq, if_pos hholds]
    | head hstep _ ih => rw [holder?_eq, hstep.1, hstep.2]; simpa using ih

/-- A name means its binding in the nearest frame that holds it. -/
theorem get?_eq_some_iff {i : Nat} {b : Binding} :
    t.get? i name = some b ↔ ∃ j, t.Sees name i j ∧ (t.frame j).get? name = some b := by
  rw [get?, Option.bind_eq_some_iff]
  refine exists_congr fun j => ?_
  rw [holder?_eq_some_iff]
  constructor
  · rintro ⟨⟨hsees, -⟩, hb⟩
    exact ⟨hsees, hb⟩
  · rintro ⟨hsees, hb⟩
    exact ⟨⟨hsees, by simp [contains, Frame.contains, hb]⟩, hb⟩

theorem get?_eq_none_iff {i : Nat} :
    t.get? i name = none ↔ ∀ j, t.Around i j → t.contains j name = false := by
  induction i using t.induct with
  | h i ih =>
      rw [get?_eq, Option.or_eq_none_iff]
      constructor
      · rintro ⟨hi, hout⟩ j hj
        rcases Relation.ReflTransGen.cases_head hj with rfl | ⟨p, hp, hj⟩
        · simp [contains, Frame.contains, hi]
        · rw [hp] at hout
          exact (ih p hp).1 hout j hj
      · intro h
        refine ⟨by simpa [contains, Frame.contains] using h i .refl, ?_⟩
        cases hp : t.parent? i with
        | none => rfl
        | some p => exact (ih p hp).2 fun j hj => h j (.head hp hj)

/-! ## New frames -/

/-- The second forest is the first one with one more frame, which is empty and has the given parent. -/
structure Adds (t : Forest) (parent : Option Nat) (t' : Forest) : Prop where
  length : t'.nodes.length = t.nodes.length + 1
  parent?_old : ∀ i < t.nodes.length, t'.parent? i = t.parent? i
  parent?_new : t'.parent? t.nodes.length = parent
  frame : ∀ i, t'.frame i = t.frame i
  get?_old : ∀ i < t.nodes.length, ∀ name, t'.get? i name = t.get? i name
  get?_new : ∀ name, t'.get? t.nodes.length name = parent.bind (t.get? · name)

theorem frame_of_le {i : Nat} (h : t.nodes.length ≤ i) : t.frame i = .empty := by
  simp [frame, List.getElem?_eq_none h]

theorem frame_addChild (t : Forest) (i j : Nat) : (t.addChild i).frame j = t.frame j := by
  simp only [frame, addChild, List.getElem?_append]
  split
  · rfl
  · rename_i hj
    rw [List.getElem?_eq_none (Nat.le_of_not_lt hj), List.getElem?_singleton]
    split <;> rfl

theorem parent?_addChild_old {j : Nat} (h : j < t.nodes.length) (i : Nat) :
    (t.addChild i).parent? j = t.parent? j := by
  simp [parent?, addChild, List.getElem?_append, h]

theorem parent?_addChild_new (t : Forest) (i : Nat) :
    (t.addChild i).parent? t.nodes.length = if i < t.nodes.length then some i else none := by
  simp [parent?, addChild]

theorem get?_addChild_old {j : Nat} (h : j < t.nodes.length) (i : Nat) (name : Text) :
    (t.addChild i).get? j name = t.get? j name := by
  induction j using t.induct with
  | h j ih =>
      rw [get?_eq, get?_eq t, frame_addChild, parent?_addChild_old h]
      cases hp : t.parent? j with
      | none => rfl
      | some p =>
          have hlt : p < t.nodes.length := Nat.lt_trans (lt_of_parent? hp) h
          simp only [Option.bind_some, ih p hp hlt]

theorem adds_addChild (t : Forest) (i : Nat) :
    t.Adds (if i < t.nodes.length then some i else none) (t.addChild i) := by
  refine ⟨by simp [addChild], fun j hj => parent?_addChild_old hj i, t.parent?_addChild_new i,
    t.frame_addChild i, fun j hj => get?_addChild_old hj i, fun name => ?_⟩
  rw [get?_eq, frame_addChild, frame_of_le (Nat.le_refl _), parent?_addChild_new]
  split
  · rename_i hi
    simpa [Frame.get?, Frame.empty] using get?_addChild_old hi i name
  · rfl

/-! ## Stores -/

/-- The second forest is the first one with a name bound in a frame, and nothing else changed. -/
structure Stores (t : Forest) (j : Nat) (name : Text) (b : Binding) (t' : Forest) : Prop where
  parent? : ∀ i, t'.parent? i = t.parent? i
  bound : (t'.frame j).get? name = some b
  others : ∀ i other, ¬ (i = j ∧ other = name) → (t'.frame i).get? other = (t.frame i).get? other

/-- A store, and who sees it. -/
structure Rebinds (t : Forest) (j : Nat) (name : Text) (b : Binding) (t' : Forest) : Prop
    extends t.Stores j name b t' where
  seen : ∀ i, t.Sees name i j → t'.get? i name = some b
  unseen : ∀ i other, ¬ (other = name ∧ t.Sees name i j) → t'.get? i other = t.get? i other

theorem Stores.seen {i j : Nat} {b : Binding} (h : t.Stores j name b t') (hsees : t.Sees name i j) :
    t'.get? i name = some b := by
  induction hsees using Relation.ReflTransGen.head_induction_on with
  | refl => simp [get?_eq t' j, h.bound]
  | @head i p hstep _ ih =>
      -- a way out does not come back to where it started, but nothing here depends on that
      by_cases hi : i = j
      · subst hi
        simp [get?_eq t' i, h.bound]
      · have hnone : (t'.frame i).get? name = none := by
          rw [h.others i name fun heq => hi heq.1]
          simpa [contains, Frame.contains] using hstep.1
        rw [get?_eq, hnone, h.parent?, hstep.2]
        exact ih

theorem Stores.unseen {i j : Nat} {b : Binding} {other : Text} (h : t.Stores j name b t')
    (hother : ¬ (other = name ∧ t.Sees name i j)) : t'.get? i other = t.get? i other := by
  induction i using t.induct with
  | h i ih =>
      have hframe : (t'.frame i).get? other = (t.frame i).get? other := by
        refine h.others i other fun heq => hother ⟨heq.2, ?_⟩
        rw [heq.1]
        exact .refl t name j
      rw [get?_eq t', get?_eq t, h.parent?, hframe]
      cases hi : (t.frame i).get? other with
      | some b => rfl
      | none =>
          cases hp : t.parent? i with
          | none => rfl
          | some p =>
              refine ih p hp fun heq => hother ⟨heq.1, .outward ?_ hp heq.2⟩
              simp [contains, Frame.contains, ← heq.1, hi]

theorem Stores.rebinds {j : Nat} {b : Binding} (h : t.Stores j name b t') : t.Rebinds j name b t' :=
  ⟨h, fun _ hsees => h.seen hsees, fun _ _ hother => h.unseen hother⟩

theorem parent?_modify (t : Forest) (j : Nat) (change : Frame → Frame) (i : Nat) :
    (t.modify j change).parent? i = t.parent? i := by
  simp only [parent?, modify, List.getElem?_modify]
  cases t.nodes[i]? with
  | none => rfl
  | some node => by_cases h : j = i <;> simp [h]

theorem frame_modify_self {j : Nat} (hj : j < t.nodes.length) (change : Frame → Frame) :
    (t.modify j change).frame j = change (t.frame j) := by
  simp [frame, modify, hj]

theorem frame_modify_ne {i j : Nat} (h : i ≠ j) (change : Frame → Frame) :
    (t.modify j change).frame i = t.frame i := by
  simp [frame, modify, h.symm]

theorem modify_eq_self {j : Nat} (hj : ¬ j < t.nodes.length) (change : Frame → Frame) :
    t.modify j change = t := by
  cases t
  simp [modify, List.modify_eq_self (Nat.le_of_not_lt hj)]

theorem stores_define {j : Nat} (hj : j < t.nodes.length) (name : Text) (b : Binding) :
    t.Stores j name b (t.define j name b) := by
  refine ⟨t.parent?_modify j _, by simp [define, frame_modify_self hj], fun i other hother => ?_⟩
  by_cases hi : i = j
  · subst hi
    have hne : other ≠ name := fun heq => hother ⟨rfl, heq⟩
    simp [define, frame_modify_self hj, hne]
  · rw [define, frame_modify_ne hi]

/-- A frame that holds something is in use. -/
theorem lt_of_get? {j : Nat} {b : Binding} (h : (t.frame j).get? name = some b) : j < t.nodes.length := by
  refine Nat.lt_of_not_le fun hj => ?_
  have hnone : t.nodes[j]? = none := List.getElem?_eq_none hj
  simp [frame, hnone, Frame.get?, Frame.empty] at h

theorem assign?_eq_none {i : Nat} (h : t.get? i name = none) (v : Value) : t.assign? i name v = none := by
  have hholder : t.holder? i name = none := by
    refine Option.eq_none_iff_forall_not_mem.2 fun j hj => ?_
    obtain ⟨hsees, hholds⟩ := holder?_eq_some_iff.1 hj
    obtain ⟨b, hb⟩ := Option.isSome_iff_exists.1 hholds
    rw [get?_eq_some_iff.2 ⟨j, hsees, hb⟩] at h
    cases h
  rw [assign?, hholder, Option.map_none]

theorem stores_setValue {j : Nat} {b : Binding} (h : (t.frame j).get? name = some b) (v : Value) :
    t.Stores j name ⟨b.isMutable, v⟩ (t.modify j (·.setValue name v)) := by
  have hj := lt_of_get? h
  refine ⟨t.parent?_modify j _, by simp [frame_modify_self hj, h], fun i other hother => ?_⟩
  by_cases hi : i = j
  · subst hi
    have hne : other ≠ name := fun heq => hother ⟨rfl, heq⟩
    simp [frame_modify_self hj, hne]
  · rw [frame_modify_ne hi]

theorem exists_assign? {i : Nat} {b : Binding} (h : t.get? i name = some b) (v : Value) :
    ∃ j t', t.assign? i name v = some t' ∧ t.Sees name i j ∧ (t.frame j).get? name = some b ∧
      t.Stores j name ⟨b.isMutable, v⟩ t' := by
  obtain ⟨j, hsees, hb⟩ := get?_eq_some_iff.1 h
  have hholds : t.contains j name := by simp [contains, Frame.contains, hb]
  refine ⟨j, t.modify j (·.setValue name v), ?_, hsees, hb, stores_setValue hb v⟩
  rw [assign?, holder?_eq_some_iff.2 ⟨hsees, hholds⟩, Option.map_some]

/-! ## Histories -/

/-- What can be done to a forest. -/
inductive Op where
  | root
  | child (frame : Nat)
  | define (frame : Nat) (name : Text) (b : Binding)
  | assign (frame : Nat) (name : Text) (v : Value)

/-- The forest after an operation. An assignment to a name that is not bound does nothing. -/
def Op.perform : Op → Forest → Forest
  | root, t => t.addRoot
  | child i, t => t.addChild i
  | define i name b, t => t.define i name b
  | assign i name v, t => (t.assign? i name v).getD t

/-- The forest after operations in order, from no frames at all. -/
def built (ops : List Op) : Forest := ops.foldl (fun t op => op.perform t) .empty

theorem built_snoc (ops : List Op) (op : Op) : built (ops ++ [op]) = op.perform (built ops) := by
  simp [built]

theorem contains_modify_setValue (t : Forest) (j : Nat) (name other : Text) (v : Value) (i : Nat) :
    (t.modify j (·.setValue name v)).contains i other = t.contains i other := by
  by_cases hi : i = j
  · subst hi
    by_cases hlt : i < t.nodes.length
    · simp [contains, frame_modify_self hlt, Frame.contains]
    · rw [modify_eq_self hlt]
  · rw [contains, frame_modify_ne hi, contains]

/-- One operation: a name comes into a frame only by being defined there. -/
theorem Op.contains_perform (op : Op) (t : Forest) (i : Nat) (name : Text) :
    (op.perform t).contains i name ↔
      t.contains i name ∨ ∃ b, op = .define i name b ∧ i < t.nodes.length := by
  cases op with
  | root => simp [perform, addRoot, contains, frame_addChild]
  | child => simp [perform, contains, frame_addChild]
  | assign j other v =>
      rw [perform, assign?]
      cases t.holder? j other with
      | none => simp
      | some k => simp [contains_modify_setValue]
  | define j other b =>
      have hdefine : (∃ b', Op.define j other b = .define i name b' ∧ i < t.nodes.length) ↔
          (i = j ∧ name = other) ∧ j < t.nodes.length := by
        constructor
        · rintro ⟨b', heq, hi⟩
          cases heq
          exact ⟨⟨rfl, rfl⟩, hi⟩
        · rintro ⟨⟨rfl, rfl⟩, hj⟩
          exact ⟨b, rfl, hj⟩
      rw [hdefine, perform]
      by_cases hj : j < t.nodes.length
      · have hstores := stores_define hj other b
        by_cases h : i = j ∧ name = other
        · obtain ⟨rfl, rfl⟩ := h
          simp [contains, Frame.contains, hstores.bound, hj]
        · simp [contains, Frame.contains, hstores.others i name h, h]
      · rw [Forest.define, modify_eq_self hj]
        simp [hj]

/-- The names of a frame are those that have been defined there, while it was in use. -/
theorem contains_built_iff {ops : List Op} {i : Nat} {name : Text} :
    (built ops).contains i name ↔
      ∃ before b later, ops = before ++ .define i name b :: later ∧ i < (built before).nodes.length := by
  induction ops using List.reverseRecOn with
  | nil => simp [built, contains, frame, empty, Frame.contains, Frame.get?, Frame.empty]
  | append_singleton ops op ih =>
      rw [built_snoc, Op.contains_perform, ih]
      constructor
      · rintro (⟨before, b, later, rfl, hi⟩ | ⟨b, rfl, hi⟩)
        · exact ⟨before, b, later ++ [op], by simp, hi⟩
        · exact ⟨ops, b, [], rfl, hi⟩
      · rintro ⟨before, b, later, hops, hi⟩
        rcases List.eq_nil_or_concat later with rfl | ⟨later, last, rfl⟩
        · obtain ⟨rfl, heq⟩ := List.append_inj' hops rfl
          cases heq
          exact Or.inr ⟨b, rfl, hi⟩
        · rw [List.concat_eq_append, ← List.cons_append, ← List.append_assoc] at hops
          obtain ⟨rfl, -⟩ := List.append_inj' hops rfl
          exact Or.inl ⟨before, b, later, rfl, hi⟩

end Forest

/-- In every forest that operations can build, for each of its frames and each name. A new frame is empty, and
is a root or a child as asked. A look-up yields the binding in the nearest frame on the way out that holds the
name, and nothing if no frame on the way out does. An assignment succeeds if a look-up does, and then stores
into that nearest frame, keeping the mutability; otherwise it changes nothing. A definition stores into the
frame itself. A store is seen by the frames from which the way is clear of the name, and by no others. The names
of a frame are listed in strict byte order, and are those that have been defined there. -/
theorem forest_resolves_names (ops : List Forest.Op) {f : Nat} (hf : f < (Forest.built ops).nodes.length)
    (name : Text) :
    let t := Forest.built ops
    t.Adds none (Forest.Op.root.perform t) ∧ t.Adds (some f) ((Forest.Op.child f).perform t) ∧
    (∀ b, t.get? f name = some b ↔ ∃ j, t.Sees name f j ∧ (t.frame j).get? name = some b) ∧
    (t.get? f name = none ↔ ∀ j, t.Around f j → t.contains j name = false) ∧
    (∀ v, t.get? f name = none → t.assign? f name v = none ∧ (Forest.Op.assign f name v).perform t = t) ∧
    (∀ v b, t.get? f name = some b → ∃ j t', t.assign? f name v = some t' ∧ t.Sees name f j ∧
      (t.frame j).get? name = some b ∧ t.Rebinds j name ⟨b.isMutable, v⟩ t') ∧
    (∀ b, t.Rebinds f name b (t.define f name b)) ∧
    (t.frame f).names.Pairwise (· < ·) ∧
    (name ∈ (t.frame f).names ↔ t.contains f name) ∧
    (t.contains f name ↔ ∃ before b later, ops = before ++ .define f name b :: later ∧
      f < (Forest.built before).nodes.length) := by
  intro t
  have hroot := t.adds_addChild t.nodes.length
  have hchild := t.adds_addChild f
  rw [if_neg (Nat.lt_irrefl _)] at hroot
  rw [if_pos hf] at hchild
  refine ⟨hroot, hchild, fun b => Forest.get?_eq_some_iff, Forest.get?_eq_none_iff, fun v hnone => ?_,
    fun v b hb => ?_, fun b => (Forest.stores_define hf name b).rebinds,
    List.pairwise_map.2 (t.frame f).sorted, Frame.mem_names_iff, Forest.contains_built_iff⟩
  · have hassign := Forest.assign?_eq_none hnone v
    exact ⟨hassign, by rw [Forest.Op.perform, hassign, Option.getD_none]⟩
  · obtain ⟨j, t', hassign, hsees, hj, hstores⟩ := Forest.exists_assign? hb v
    exact ⟨j, t', hassign, hsees, hj, hstores.rebinds⟩

/-- A root that binds `x`, two children of which the older one shadows `x`, and a child of that one. Seen from
the younger child, an assignment to `x` reaches the root; a definition of `x` in it is seen there and not from
below its sibling. -/
theorem forest_resolves_names_siblings :
    let x := Text.ofString "x"
    let t := Forest.built [.root, .define 0 x ⟨true, .nil⟩, .child 0, .child 0,
      .define 1 x ⟨false, .ofBool true⟩, .child 1]
    let b : Binding := ⟨false, .ofBool false⟩
    2 < t.nodes.length ∧
    (t.define 2 x b).get? 2 x = some b ∧
    (t.define 2 x b).get? 3 x = t.get? 3 x ∧
    ∃ t', t.assign? 2 x (.ofBool true) = some t' ∧ t'.get? 2 x = some ⟨true, .ofBool true⟩ ∧
      t'.get? 3 x = t.get? 3 x := by
  intro x t b
  obtain ⟨-, -, hget, -, -, hassign, hdefine, -⟩ := forest_resolves_names
    [.root, .define 0 x ⟨true, .nil⟩, .child 0, .child 0, .define 1 x ⟨false, .ofBool true⟩, .child 1]
    (show 2 < t.nodes.length by decide +kernel) x
  have hout : t.Sees x 2 0 := .outward (by decide +kernel) (by decide +kernel) (.refl t x 0)
  have hx : t.get? 2 x = some ⟨true, .nil⟩ := (hget _).2 ⟨0, hout, rfl⟩
  have hfar : ∀ j, t.Sees x 3 j → j = 3 ∨ j = 1 := by
    intro j hj
    rcases Relation.ReflTransGen.cases_head hj with rfl | ⟨p, hp, hj⟩
    · exact Or.inl rfl
    · obtain rfl : 1 = p := Option.some.inj hp.2
      rcases Relation.ReflTransGen.cases_head hj with rfl | ⟨q, hq, -⟩
      · exact Or.inr rfl
      · exact absurd hq.1 (by decide +kernel)
  refine ⟨by decide +kernel, (hdefine b).seen 2 (.refl t x 2), (hdefine b).unseen 3 x fun h => ?_, ?_⟩
  · rcases hfar 2 h.2 with h | h <;> cases h
  · obtain ⟨j, t', hassigned, hsees, hj, hrebinds⟩ := hassign (.ofBool true) _ hx
    refine ⟨t', hassigned, hrebinds.seen 2 hsees, hrebinds.unseen 3 x fun h => ?_⟩
    rcases hfar j h.2 with rfl | rfl <;> cases hj

end LetScript
