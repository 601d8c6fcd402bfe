import LetScript.Proofs.Execution.Faults
import LetScript.Proofs.Execution.Scoping

/-!
# Names before execution

A check of statements that looks at names only: what is declared where, and whether it is mutable. It is
exact. Statements that pass it never fail over a name, and leave the names that the check has computed;
statements that do not pass it fail, over a name or over something that comes before it.
-/

namespace LetScript

/-! ## The check -/

/-- The names of each frame, innermost first, and whether they are mutable. -/
abbrev Signature := List (List (Text × Bool))

namespace Signature

/-- Whether the nearest binding of a name is mutable, if it has one. -/
def flag? (σ : Signature) (name : Text) : Option Bool := σ.findSome? (·.lookup name)

/-- Whether a name is in the innermost frame. -/
def declares : Signature → Text → Bool
  | [], _ => false
  | flags :: _, name => (flags.lookup name).isSome

/-- A name comes into the innermost frame. -/
def declare : Signature → Text → Bool → Signature
  | [], _, _ => []
  | flags :: outer, name, isMutable => ((name, isMutable) :: flags) :: outer

end Signature

/-- Whether the names of an expression can be used as it uses them. -/
def Expr.check (σ : Signature) : Expr → Bool
  | .literal _ _ => true
  | .group _ inner => inner.check σ
  | .unary _ _ operand => operand.check σ
  | .binary _ _ left right => left.check σ && right.check σ
  | .reference _ name => (σ.flag? name.lexeme).isSome
  | .assign _ name value => σ.flag? name.lexeme = some true && value.check σ
  | .absent => true
  | .foreign _ _ => true

mutual

/-- The names after a statement, if it uses names only as it may. -/
def Stmt.check (σ : Signature) : Stmt → Option Signature
  | .expr _ value => if value.check σ then some σ else none
  | .println _ value => if value.check σ then some σ else none
  | .declare _ name isMutable init =>
    if !σ.declares name.lexeme && init.check σ then some (σ.declare name.lexeme isMutable) else none
  | .block _ body => (Stmt.checkAll ([] :: σ) body).map List.tail
  | .absent => some σ
  | .foreign _ _ => some σ

/-- The names after statements, if they use names only as they may. -/
def Stmt.checkAll (σ : Signature) : List Stmt → Option Signature
  | [] => some σ
  | stmt :: rest =>
    match stmt.check σ with
    | none => none
    | some σ' => Stmt.checkAll σ' rest

end

/-! ## Names of a scope -/

/-- The frame has these names, as mutable as said. -/
def Frame.HasFlags (f : Frame) (flags : List (Text × Bool)) : Prop :=
  ∀ name, (f.get? name).map (·.isMutable) = flags.lookup name

/-- The frames of the scope have these names, as mutable as said, whatever their values. -/
inductive Signature.Describes : Signature → Scope → Prop
  | root {flags : List (Text × Bool)} {f : Frame} : f.HasFlags flags → Describes [flags] (.root f)
  | nested {flags : List (Text × Bool)} {f : Frame} {σ : Signature} {outer : Scope} :
      f.HasFlags flags → Describes σ outer → Describes (flags :: σ) (.nested f outer)

theorem Frame.HasFlags.keeps {f f' : Frame} {flags : List (Text × Bool)} (h : f.HasFlags flags)
    (hf : f.Keeps f') : f'.HasFlags flags := by
  intro name
  rw [← h name]
  have hname := hf name
  generalize f.get? name = o, f'.get? name = o' at hname ⊢
  cases hname with
  | none => rfl
  | some hkeeps => simp [hkeeps.isMutable]

theorem Frame.HasFlags.define {f : Frame} {flags : List (Text × Bool)} (h : f.HasFlags flags) (name : Text)
    (b : Binding) : (f.define name b).HasFlags ((name, b.isMutable) :: flags) := by
  intro other
  rw [Frame.get?_define, List.lookup_cons]
  by_cases hne : other = name
  · simp [hne]
  · have hbeq : (other == name) = false := by simpa using hne
    simpa [hne, hbeq] using h other

theorem Frame.HasFlags.contains {f : Frame} {flags : List (Text × Bool)} (h : f.HasFlags flags)
    (name : Text) : f.contains name = (flags.lookup name).isSome := by
  rw [← h name, Option.isSome_map]
  rfl

namespace Signature.Describes

variable {σ : Signature} {s s' : Scope}

theorem flag? (h : σ.Describes s) (name : Text) : σ.flag? name = (s.get? name).map (·.isMutable) := by
  induction h with
  | root hf => simp [Signature.flag?, Scope.get?, hf name]
  | @nested flags f σ outer hf _ ih =>
      rw [Signature.flag?, List.findSome?_cons, ← hf name, Scope.get?]
      cases f.get? name with
      | none => exact ih
      | some b => rfl

theorem declares (h : σ.Describes s) (name : Text) : σ.declares name = s.frame.contains name := by
  cases h with
  | root hf => exact (hf.contains name).symm
  | nested hf _ => exact (hf.contains name).symm

theorem keeps (h : σ.Describes s) (hs : s.Keeps s') : σ.Describes s' := by
  induction h generalizing s' with
  | root hf =>
      cases hs with
      | root hkeeps => exact .root (hf.keeps hkeeps)
  | nested hf _ ih =>
      cases hs with
      | nested hkeeps houter => exact .nested (hf.keeps hkeeps) (ih houter)

theorem define (h : σ.Describes s) (name : Text) (b : Binding) :
    (σ.declare name b.isMutable).Describes (s.define name b) := by
  cases h with
  | root hf => exact .root (hf.define name b)
  | nested hf houter => exact .nested (hf.define name b) houter

theorem enter (h : σ.Describes s) : Signature.Describes ([] :: σ) s.enter := .nested (fun _ => rfl) h

/-- What describes a scope with an open block describes, without its first frame, the scope outside. -/
theorem leave (h : σ.Describes s') (hs : s.enter.Grows s') : Signature.Describes σ.tail s'.leave := by
  cases hs with
  | nested _ _ =>
      cases h with
      | nested _ houter => exact houter

end Signature.Describes

/-! ## Expressions -/

/-- The outcome is not a failure over a name. -/
abbrev NoNameFault : Except Diagnostic Value → Prop := Raises (·.fault.cls ≠ .name)

theorem Expr.eval_of_check {σ : Signature} {e : Expr} {s : Scope} (h : σ.Describes s)
    (he : e.check σ) : NoNameFault (e.eval s).1 := by
  induction e generalizing s with
  | literal => exact raises_ok _
  | absent | foreign => exact raises_error (by simp [Fault.cls])
  | group _ inner ih => exact ih h he
  | unary c op operand ih =>
      have hoperand := ih h he
      simp only [Expr.eval]
      split
      · rename_i heq
        rwa [heq] at hoperand
      · exact Context.place_raises (fun _ => Value.signOp_error) fun _ h => h.cls_ne_name
  | binary c op left right ihl ihr =>
      simp only [Expr.check, Bool.and_eq_true] at he
      exact Expr.combine_raises (ihl h he.1) (ihr (h.keeps (left.eval_keeps s)) he.2) fun _ h => h.cls_ne_name
  | reference c name =>
      simp only [Expr.check, h.flag?, Option.isSome_map] at he
      obtain ⟨b, hb⟩ := Option.isSome_iff_exists.1 he
      simp only [Expr.eval, hb]
      exact raises_ok _
  | assign c name value ih =>
      simp only [Expr.check, h.flag?, Bool.and_eq_true, decide_eq_true_eq, Option.map_eq_some_iff] at he
      obtain ⟨⟨b, hb, hmut⟩, hvalue⟩ := he
      have hresult := ih h hvalue
      simp only [Expr.eval, hb, hmut, ↓reduceIte]
      split
      · rename_i heq
        rwa [heq] at hresult
      · exact raises_ok _

theorem Expr.eval_of_not_check {σ : Signature} {e : Expr} {s : Scope} (h : σ.Describes s)
    (he : e.check σ = false) : ∃ d, (e.eval s).1 = .error d := by
  induction e generalizing s with
  | literal | absent | foreign => cases he
  | group _ inner ih => exact ih h he
  | unary c op operand ih =>
      obtain ⟨d, hd⟩ := ih h he
      simp only [Expr.eval]
      split
      · exact ⟨_, rfl⟩
      · rename_i heq
        rw [heq] at hd
        cases hd
  | binary c op left right ihl ihr =>
      simp only [Expr.check, Bool.and_eq_false_iff] at he
      simp only [Expr.eval]
      -- the right operand is evaluated whatever became of the left one
      rcases he with hleft | hright
      · obtain ⟨d, hd⟩ := ihl h hleft
        exact ⟨d, by rw [hd]; rfl⟩
      · obtain ⟨d, hd⟩ := ihr (h.keeps (left.eval_keeps s)) hright
        rw [hd]
        cases (left.eval s).1 with
        | error d' => exact ⟨d', rfl⟩
        | ok v => exact ⟨d, rfl⟩
  | reference c name =>
      simp only [Expr.check, h.flag?, Option.isSome_map, Option.isSome_eq_false_iff,
        Option.isNone_iff_eq_none]
        at he
      simp only [Expr.eval, he]
      exact ⟨_, rfl⟩
  | assign c name value ih =>
      simp only [Expr.check, h.flag?, Bool.and_eq_false_iff, decide_eq_false_iff_not] at he
      simp only [Expr.eval]
      cases hb : s.get? name.lexeme with
      | none => exact ⟨_, rfl⟩
      | some b =>
          rw [hb] at he
          dsimp only
          split
          · rename_i hmut
            rcases he with htarget | hvalue
            · exact absurd (by simp [hmut]) htarget
            · obtain ⟨d, hd⟩ := ih h hvalue
              split
              · exact ⟨_, rfl⟩
              · rename_i heq
                rw [heq] at hd
                cases hd
          · exact ⟨_, rfl⟩

/-! ## Statements -/

/-- What the check has found out about statements comes true when they are run: they fail, or they do not
fail over a name and leave the names that it has computed. -/
def Foretells (checked : Option Signature) (result : Except Diagnostic Value) (after : Scope) : Prop :=
  match checked with
  | none => ∃ d, result = .error d
  | some σ => NoNameFault result ∧ ∀ v, result = .ok v → σ.Describes after

/-- A failure of another kind is foretold by every check. -/
theorem foretells_error {d : Diagnostic} (h : d.fault.cls ≠ .name) (checked : Option Signature)
    (after : Scope) : Foretells checked (.error d) after := by
  cases checked with
  | none => exact ⟨d, rfl⟩
  | some σ => exact ⟨raises_error h, fun v hv => by cases hv⟩

/-- The check of an expression foretells its value, and the scope is described as before. -/
theorem Expr.eval_foretold {σ : Signature} {s : Scope} (h : σ.Describes s) (e : Expr) :
    Foretells (if e.check σ then some σ else none) (e.eval s).1 (e.eval s).2 := by
  cases he : e.check σ with
  | false => exact e.eval_of_not_check h he
  | true => exact ⟨e.eval_of_check h he, fun v _ => h.keeps (e.eval_keeps s)⟩

theorem Stmt.println_foretold {σ : Signature} {st : State} (h : σ.Describes st.scope) (c : Context)
    (value : Expr) :
    Foretells ((Stmt.println c value).check σ) ((Stmt.println c value).exec st).1
      ((Stmt.println c value).exec st).2.scope := by
  have hvalue := value.eval_foretold h
  simp only [Stmt.check, Stmt.exec]
  cases heval : value.eval st.scope with
  | mk result s =>
      rw [heval] at hvalue
      cases result with
      | error d => exact hvalue
      | ok v =>
          cases hcheck : value.check σ with
          | false =>
              rw [hcheck] at hvalue
              obtain ⟨d, hd⟩ := hvalue
              cases hd
          | true =>
              rw [hcheck] at hvalue
              dsimp only
              cases hoffer : st.sink.offer v.display.line with
              | mk refusal sink =>
                  cases refusal with
                  | none => exact ⟨raises_ok _, fun _ _ => hvalue.2 v rfl⟩
                  | some cause => exact foretells_error (by simp [Fault.cls]) _ _

theorem Stmt.declare_foretold {σ : Signature} {st : State} (h : σ.Describes st.scope) (c : Context)
    (name : Token) (isMutable : Bool) (init : Expr) :
    Foretells ((Stmt.declare c name isMutable init).check σ) ((Stmt.declare c name isMutable init).exec st).1
      ((Stmt.declare c name isMutable init).exec st).2.scope := by
  have hinit := init.eval_foretold h
  simp only [Stmt.check, Stmt.exec, h.declares]
  cases st.scope.frame.contains name.lexeme with
  | true => exact ⟨_, rfl⟩
  | false =>
      simp only [Bool.not_false, Bool.true_and, Bool.false_eq_true, ↓reduceIte]
      cases heval : init.eval st.scope with
      | mk result s =>
          rw [heval] at hinit
          cases hcheck : init.check σ with
          | false =>
              rw [hcheck] at hinit
              obtain ⟨d, hd⟩ := hinit
              cases hd
              exact ⟨d, rfl⟩
          | true =>
              rw [hcheck] at hinit
              cases result with
              | error d => exact foretells_error (hinit.1 d rfl) _ _
              | ok v => exact ⟨raises_ok _, fun _ _ => (hinit.2 v rfl).define name.lexeme ⟨isMutable, v⟩⟩

mutual

theorem Stmt.exec_foretold {σ : Signature} {st : State} (h : σ.Describes st.scope) (stmt : Stmt) :
    Foretells (stmt.check σ) (stmt.exec st).1 (stmt.exec st).2.scope := by
  match stmt with
  | .expr _ value => exact value.eval_foretold h
  | .println c value => exact Stmt.println_foretold h c value
  | .declare c name isMutable init => exact Stmt.declare_foretold h c name isMutable init
  | .block c body =>
      have henter : Signature.Describes ([] :: σ) (st.withScope st.scope.enter).scope := h.enter
      have hbody := Stmt.execFrom_foretold henter .nil body
      have hgrows := Stmt.execFrom_grows .nil body (st.withScope st.scope.enter)
      simp only [Stmt.check, Stmt.exec]
      cases hexec : Stmt.execFrom .nil body (st.withScope st.scope.enter) with
      | mk result st' =>
          rw [hexec] at hbody hgrows
          cases hcheck : Stmt.checkAll ([] :: σ) body with
          | none =>
              rw [hcheck] at hbody
              obtain ⟨d, hd⟩ := hbody
              cases hd
              exact ⟨d, rfl⟩
          | some σ' =>
              rw [hcheck] at hbody
              cases result with
              | error d => exact foretells_error (hbody.1 d rfl) _ _
              | ok v => exact ⟨raises_ok _, fun _ _ => (hbody.2 v rfl).leave hgrows⟩
  | .absent => exact foretells_error (by simp [Fault.cls]) _ _
  | .foreign _ _ => exact foretells_error (by simp [Fault.cls]) _ _

theorem Stmt.execFrom_foretold {σ : Signature} {st : State} (h : σ.Describes st.scope) (v : Value)
    (program : List Stmt) :
    Foretells (Stmt.checkAll σ program) (Stmt.execFrom v program st).1
      (Stmt.execFrom v program st).2.scope := by
  match program with
  | [] => exact ⟨raises_ok v, fun _ _ => h⟩
  | stmt :: rest =>
      have hstmt := Stmt.exec_foretold h stmt
      simp only [Stmt.checkAll, Stmt.execFrom]
      cases hexec : stmt.exec st with
      | mk result st' =>
          rw [hexec] at hstmt
          cases hcheck : stmt.check σ with
          | none =>
              rw [hcheck] at hstmt
              obtain ⟨d, hd⟩ := hstmt
              cases hd
              exact ⟨d, rfl⟩
          | some σ' =>
              rw [hcheck] at hstmt
              cases result with
              | error d => exact foretells_error (hstmt.1 d rfl) _ _
              | ok v' => exact Stmt.execFrom_foretold (hstmt.2 v' rfl) v' rest

end

/-- The check of names is exact. For statements that pass it, run where the frames have the names and flags
with which it began: no failure is over a name and, if there is none, the frames have the names and flags
that it has computed. Statements that do not pass it fail. -/
theorem static_scoping_is_exact (program : List Stmt) {σ : Signature} {st : State}
    (h : σ.Describes st.scope) :
    (∀ σ', Stmt.checkAll σ program = some σ' →
      (∀ d, (Stmt.execAll program st).1 = .error d → d.fault.cls ≠ .name) ∧
      ∀ v, (Stmt.execAll program st).1 = .ok v → σ'.Describes (Stmt.execAll program st).2.scope) ∧
    (Stmt.checkAll σ program = none → ∃ d, (Stmt.execAll program st).1 = .error d) := by
  have hforetold := Stmt.execFrom_foretold h .nil program
  refine ⟨fun σ' hσ' => ?_, fun hnone => ?_⟩
  · rw [hσ'] at hforetold
    exact hforetold
  · rw [hnone] at hforetold
    exact hforetold

/-- With a mutable `x` around it, a block may declare an immutable `x` from the outer one, and the outer one
may be assigned to after the block but not within it. The statements that may be run succeed, with the names as
before. -/
theorem static_scoping_is_exact_shadowing :
    let c := Context.nowhere
    let x : Token := ⟨.identifier, Text.ofString "x", .none, 1⟩
    let shadow : Stmt := .declare c x false (.reference c x)
    let store : Stmt := .expr c (.assign c x (.literal c ⟨.keyword .nilKw, Text.ofString "nil", .none, 1⟩))
    let st : State := ⟨.root (Frame.empty.define x.lexeme ⟨true, .nil⟩), .unlimited⟩
    Signature.Describes [[(x.lexeme, true)]] st.scope ∧
      Stmt.checkAll [[(x.lexeme, true)]] [.block c [shadow], store] = some [[(x.lexeme, true)]] ∧
      (∀ d, (Stmt.execAll [.block c [shadow], store] st).1 = .error d → d.fault.cls ≠ .name) ∧
      (Stmt.execAll [.block c [shadow], store] st).1 = .ok .nil ∧
      Signature.Describes [[(x.lexeme, true)]] (Stmt.execAll [.block c [shadow], store] st).2.scope ∧
      Stmt.checkAll [[(x.lexeme, true)]] [.block c [shadow, store]] = none ∧
      ∃ d, (Stmt.execAll [.block c [shadow, store]] st).1 = .error d := by
  intro c x shadow store st
  have hempty : Frame.empty.HasFlags [] := fun _ => rfl
  have hst : Signature.Describes [[(x.lexeme, true)]] st.scope := .root (hempty.define x.lexeme ⟨true, .nil⟩)
  have hpasses : Stmt.checkAll [[(x.lexeme, true)]] [.block c [shadow], store] =
      some [[(x.lexeme, true)]] := by
    decide +kernel
  have hfails : Stmt.checkAll [[(x.lexeme, true)]] [.block c [shadow, store]] = none := by decide +kernel
  have hsucceeds : (Stmt.execAll [.block c [shadow], store] st).1 = .ok .nil := rfl
  obtain ⟨hfaults, hnames⟩ := (static_scoping_is_exact _ hst).1 _ hpasses
  exact ⟨hst, hpasses, hfaults, hsucceeds, hnames _ hsucceeds, hfails,
    (static_scoping_is_exact _ hst).2 hfails⟩

end LetScript
