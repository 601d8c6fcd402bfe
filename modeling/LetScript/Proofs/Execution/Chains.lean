import LetScript.Proofs.Execution.Locality

/-!
# Chains of assignments

An assignment yields the value that its name had before. In a chain of assignments the names are checked from
the left to the right before anything is stored, and the values are stored from the right to the left. So
values move as in a shift register: each name takes over what the next one had, and the last name takes the
value of the expression. If anything fails, nothing has moved.
-/

namespace LetScript

/-- Assignments around an expression, the first one outermost, each with its own place. -/
def Expr.chain (targets : List (Context × Token)) (value : Expr) : Expr :=
  targets.foldr (fun target inner => .assign target.1 target.2 inner) value

namespace Scope

/-- Why a name cannot be assigned to, if it cannot. -/
def refusal? (s : Scope) (name : Text) : Option Fault :=
  match s.get? name with
  | none => some (.notDefined name)
  | some b => if b.isMutable then none else some (.immutable name)

/-- The value of a name; nil stands for that of a name that has none. -/
def value (s : Scope) (name : Text) : Value := ((s.get? name).map (·.value)).getD .nil

/-- The scope after the values of the names have moved to the left, and the given one into the last name. -/
def shift (s : Scope) (v : Value) : List Text → Scope
  | [] => s
  | name :: rest => (s.shift v rest).assign name (rest.head?.elim v s.value)

/-- What has become of a scope by a shift, place by place. -/
structure Shifted (names : List Text) (v : Value) (s s' : Scope) : Prop where
  depth : s'.depth = s.depth
  /-- The nearest binding of a name has, by the first occurrence of the name, the value of the next name, or
  the given value if there is no next one. -/
  first : ∀ i name, names[i]? = some name → (∀ j < i, names[j]? ≠ some name) →
    ∃ k b, s.holder? name = some k ∧ s.binding? k name = some b ∧
      s'.binding? k name = some ⟨b.isMutable, names[i + 1]?.elim v s.value⟩
  others : ∀ k name, ¬ (name ∈ names ∧ s.holder? name = some k) → s'.binding? k name = s.binding? k name

variable {s : Scope} {name : Text}

/-! ## Names that may be assigned to -/

theorem exists_get?_of_refusal? (h : s.refusal? name = none) : ∃ b, s.get? name = some b ∧ b.isMutable := by
  unfold refusal? at h
  split at h
  · cases h
  · rename_i b hb
    split at h
    · exact ⟨b, hb, ‹_›⟩
    · cases h

theorem exists_holder?_of_refusal? (h : s.refusal? name = none) :
    ∃ k b, s.holder? name = some k ∧ s.binding? k name = some b := by
  obtain ⟨b, hb, -⟩ := exists_get?_of_refusal? h
  rw [get?_eq_binding?] at hb
  obtain ⟨k, hk, hb⟩ := Option.bind_eq_some_iff.1 hb
  exact ⟨k, b, hk, hb⟩

theorem refusal?_cls {fault : Fault} (h : s.refusal? name = some fault) : fault.cls = .name := by
  unfold refusal? at h
  split at h
  · cases h
    rfl
  · split at h
    · cases h
    · cases h
      rfl

/-! ## Shifts -/

theorem depth_shift (s : Scope) (v : Value) (names : List Text) : (s.shift v names).depth = s.depth := by
  induction names with
  | nil => rfl
  | cons name rest ih => simp [shift, ih]

theorem holder?_shift (s : Scope) (v : Value) (names : List Text) (name : Text) :
    (s.shift v names).holder? name = s.holder? name := by
  induction names with
  | nil => rfl
  | cons other rest ih => simp [shift, ih]

theorem binding?_shift_cons (s : Scope) (v : Value) (name other : Text) (rest : List Text) (k : Nat) :
    (s.shift v (name :: rest)).binding? k other =
      if other = name ∧ s.holder? name = some k then
        ((s.shift v rest).binding? k other).map ({ · with value := rest.head?.elim v s.value })
      else (s.shift v rest).binding? k other := by
  rw [shift, binding?_assign, holder?_shift]

theorem isMutable_shift (s : Scope) (v : Value) (names : List Text) (k : Nat) (name : Text) :
    ((s.shift v names).binding? k name).map (·.isMutable) = (s.binding? k name).map (·.isMutable) := by
  induction names with
  | nil => rfl
  | cons other rest ih =>
      rw [binding?_shift_cons]
      split
      · rw [Option.map_map, ← ih]
        rfl
      · exact ih

theorem binding?_shift_first {names : List Text} (h : ∀ name ∈ names, s.refusal? name = none) (v : Value)
    {i : Nat} (hi : names[i]? = some name) (hfirst : ∀ j < i, names[j]? ≠ some name) :
    ∃ k b, s.holder? name = some k ∧ s.binding? k name = some b ∧
      (s.shift v names).binding? k name = some ⟨b.isMutable, names[i + 1]?.elim v s.value⟩ := by
  induction names generalizing i with
  | nil => cases hi
  | cons other rest ih =>
      obtain ⟨hother, hrest⟩ := List.forall_mem_cons.1 h
      cases i with
      | zero =>
          -- the outermost assignment is the last one made, and nothing comes after it
          cases hi
          obtain ⟨k, b, hk, hb⟩ := exists_holder?_of_refusal? hother
          refine ⟨k, b, hk, hb, ?_⟩
          have hflag := isMutable_shift s v rest k name
          rw [hb, Option.map_some, Option.map_eq_some_iff] at hflag
          obtain ⟨b', hb', hflag⟩ := hflag
          rw [binding?_shift_cons, if_pos ⟨rfl, hk⟩, hb']
          simp [hflag, List.head?_eq_getElem?]
      | succ i =>
          have hne : name ≠ other := by
            rintro rfl
            exact hfirst 0 (Nat.succ_pos i) rfl
          obtain ⟨k, b, hk, hb, hafter⟩ := ih hrest hi fun j hj => hfirst (j + 1) (Nat.succ_lt_succ hj)
          refine ⟨k, b, hk, hb, ?_⟩
          rw [binding?_shift_cons, if_neg fun heq => hne heq.1]
          exact hafter

theorem binding?_shift_other (v : Value) {names : List Text} {k : Nat}
    (h : ¬ (name ∈ names ∧ s.holder? name = some k)) :
    (s.shift v names).binding? k name = s.binding? k name := by
  induction names with
  | nil => rfl
  | cons other rest ih =>
      have hhere : ¬ (name = other ∧ s.holder? other = some k) := by
        rintro ⟨rfl, hk⟩
        exact h ⟨List.mem_cons_self, hk⟩
      rw [binding?_shift_cons, if_neg hhere]
      exact ih fun hrest => h ⟨List.mem_cons_of_mem _ hrest.1, hrest.2⟩

theorem shifted_shift {names : List Text} (h : ∀ name ∈ names, s.refusal? name = none) (v : Value) :
    s.Shifted names v (s.shift v names) where
  depth := depth_shift s v names
  first _ _ hi hfirst := binding?_shift_first h v hi hfirst
  others _ _ hother := binding?_shift_other v hother

end Scope

/-! ## Evaluation -/

namespace Expr

variable {s : Scope} {targets : List (Context × Token)} {e : Expr}

theorem eval_scope {e : Expr} (h : e.targets = []) (s : Scope) : (e.eval s).2 = s := by
  have hassign : ∀ name ∈ e.targets, ∀ (s : Scope) v, s = s.assign name v := by simp [h]
  exact (Expr.eval_related (fun _ => rfl) Eq.trans hassign s).symm

theorem eval_assign_of_refusal? {name : Token} {fault : Fault} (h : s.refusal? name.lexeme = some fault)
    (c : Context) (e : Expr) : (Expr.assign c name e).eval s = (.error ⟨c, fault⟩, s) := by
  cases hb : s.get? name.lexeme with
  | none =>
      simp only [Scope.refusal?, hb, Option.some.injEq] at h
      simp only [Expr.eval, hb, h]
  | some b =>
      cases hmut : b.isMutable with
      | true => simp [Scope.refusal?, hb, hmut] at h
      | false =>
          have hfault : Fault.immutable name.lexeme = fault := by simpa [Scope.refusal?, hb, hmut] using h
          simp [Expr.eval, hb, hmut, hfault]

/-- A failure inside a chain comes out of it, and nothing has been stored. -/
theorem eval_chain_of_error (h : ∀ t ∈ targets, s.refusal? t.2.lexeme = none) {d : Diagnostic}
    (he : e.eval s = (.error d, s)) : (chain targets e).eval s = (.error d, s) := by
  induction targets with
  | nil => exact he
  | cons t rest ih =>
      obtain ⟨ht, hrest⟩ := List.forall_mem_cons.1 h
      obtain ⟨b, hb, hmut⟩ := Scope.exists_get?_of_refusal? ht
      have hinner := ih hrest
      simp only [chain] at hinner
      simp only [chain, List.foldr_cons, Expr.eval, hb, hmut, ↓reduceIte, hinner]

theorem eval_chain_of_refusal? (h : ∀ t ∈ targets, s.refusal? t.2.lexeme = none) {name : Token} {fault : Fault}
    (hname : s.refusal? name.lexeme = some fault) (c : Context) (later : List (Context × Token)) (e : Expr) :
    (chain (targets ++ (c, name) :: later) e).eval s = (.error ⟨c, fault⟩, s) := by
  rw [chain, List.foldr_append]
  exact eval_chain_of_error h (eval_assign_of_refusal? hname c (chain later e))

theorem eval_chain_of_ok (h : ∀ t ∈ targets, s.refusal? t.2.lexeme = none) {v : Value}
    (he : e.eval s = (.ok v, s)) :
    (chain targets e).eval s =
      (.ok ((targets.map (·.2.lexeme)).head?.elim v s.value), s.shift v (targets.map (·.2.lexeme))) := by
  induction targets with
  | nil => exact he
  | cons t rest ih =>
      obtain ⟨ht, hrest⟩ := List.forall_mem_cons.1 h
      obtain ⟨b, hb, hmut⟩ := Scope.exists_get?_of_refusal? ht
      have hvalue : s.value t.2.lexeme = b.value := by simp [Scope.value, hb]
      have hinner := ih hrest
      simp only [chain] at hinner
      simp only [chain, List.foldr_cons, Expr.eval, hb, hmut, ↓reduceIte, hinner, List.map_cons, Scope.shift,
        List.head?_cons, Option.elim_some, hvalue]

end Expr

/-- For a chain of assignments around an expression that assigns nothing itself. If some name may not be
assigned to, the first such name is reported; if all may but the expression fails, its failure is; in both
cases nothing is changed. Otherwise the chain yields the former value of the first name, and the values of the
names have moved to the left, with that of the expression in the last name. -/
theorem assignment_chain_shifts_values (first : Context × Token) (rest : List (Context × Token)) {e : Expr}
    (he : e.targets = []) (s : Scope) :
    let targets := first :: rest
    let after := (Expr.chain targets e).eval s
    (∀ (i : Nat) (c : Context) (name : Token) (fault : Fault), targets[i]? = some (c, name) →
      s.refusal? name.lexeme = some fault →
      (∀ j < i, ∀ t : Context × Token, targets[j]? = some t → s.refusal? t.2.lexeme = none) →
      fault.cls = .name ∧ after = (.error ⟨c, fault⟩, s)) ∧
    ((∀ t ∈ targets, s.refusal? t.2.lexeme = none) →
      (∀ d, (e.eval s).1 = .error d → after = (.error d, s)) ∧
      ∀ v, (e.eval s).1 = .ok v →
        after.1 = .ok (s.value first.2.lexeme) ∧ s.Shifted (targets.map (·.2.lexeme)) v after.2) := by
  intro targets after
  have hscope := Expr.eval_scope he s
  refine ⟨fun i c name fault hi hfault hbefore => ⟨Scope.refusal?_cls hfault, ?_⟩, fun hall => ⟨?_, ?_⟩⟩
  · obtain ⟨hlt, hget⟩ := List.getElem?_eq_some_iff.1 hi
    have hsplit : targets = targets.take i ++ (c, name) :: targets.drop (i + 1) := by
      rw [← hget, ← List.drop_eq_getElem_cons hlt, List.take_append_drop]
    have hallowed : ∀ t ∈ targets.take i, s.refusal? t.2.lexeme = none := by
      intro t ht
      obtain ⟨j, hj, rfl⟩ := List.mem_take_iff_getElem.1 ht
      exact hbefore j (by omega) _ (List.getElem?_eq_getElem _)
    simp only [after]
    rw [hsplit]
    exact Expr.eval_chain_of_refusal? hallowed hfault c _ e
  · intro d hd
    exact Expr.eval_chain_of_error hall (Prod.ext hd hscope)
  · intro v hv
    have heval := Expr.eval_chain_of_ok hall (Prod.ext hv hscope)
    have hnames : ∀ name ∈ targets.map (·.2.lexeme), s.refusal? name = none := List.forall_mem_map.2 hall
    simp only [after, heval]
    exact ⟨rfl, Scope.shifted_shift hnames v⟩

/-- With `x` nil in a block and `y` false around it, `x = y = x = true` yields nil, moves false into `x` and nil
into `y`. With an immutable `z`, the chain `x = z = w = true` fails over `z` and not over `w`, which is not
defined either. -/
theorem assignment_chain_shifts_values_swapped :
    let c : Context := .atLine [] 1
    let name (s : String) : Token := ⟨.identifier, Text.ofString s, .none, 1⟩
    let truth : Expr := .literal c ⟨.keyword .trueKw, Keyword.trueKw.spelling, .none, 1⟩
    let globals := (Scope.initial.define (name "y").lexeme ⟨true, .ofBool false⟩).define (name "z").lexeme
      ⟨false, .nil⟩
    let s : Scope := globals.enter.define (name "x").lexeme ⟨true, .nil⟩
    let moved := (Expr.chain [(c, name "x"), (c, name "y"), (c, name "x")] truth).eval s
    moved.1 = .ok .nil ∧
      s.Shifted [(name "x").lexeme, (name "y").lexeme, (name "x").lexeme] (.ofBool true) moved.2 ∧
      moved.2.binding? 0 (name "x").lexeme = some ⟨true, .ofBool false⟩ ∧
      moved.2.binding? 1 (name "y").lexeme = some ⟨true, .nil⟩ ∧
      (Expr.chain [(c, name "x"), (c, name "z"), (c, name "w")] truth).eval s =
        (.error ⟨c, .immutable (name "z").lexeme⟩, s) := by
  intro c name truth globals s moved
  have htruth : truth.targets = [] := rfl
  have hmoves := assignment_chain_shifts_values (c, name "x") [(c, name "y"), (c, name "x")] htruth s
  have hfails := assignment_chain_shifts_values (c, name "x") [(c, name "z"), (c, name "w")] htruth s
  have hall : ∀ t ∈ [(c, name "x"), (c, name "y"), (c, name "x")], s.refusal? t.2.lexeme = none := by
    simp only [List.forall_mem_cons, List.not_mem_nil, false_implies, implies_true, and_true]
    exact ⟨rfl, rfl, rfl⟩
  obtain ⟨hvalue, hshifted⟩ := (hmoves.2 hall).2 (.ofBool true) rfl
  refine ⟨hvalue, hshifted, rfl, rfl, (hfails.1 1 c (name "z") _ rfl rfl ?_).2⟩
  intro j hj t ht
  obtain rfl : j = 0 := by omega
  cases ht
  rfl

end LetScript
