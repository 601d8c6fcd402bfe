import LetScript.Execution.Basic

/-!
# Two runs in step

A correspondence between scopes says which names have the same meaning in both, whatever else the scopes
hold. One statement, run in two scopes that correspond and with sinks that judge alike, has one outcome,
prints the same twice and leaves two scopes that correspond.
-/

namespace LetScript

/-! ## Sinks -/

namespace Sink

/-- Whatever else is offered to both sinks first, the next write is refused by both for the same cause, or
accepted by both. -/
def JudgeAlike (s s' : Sink) : Prop :=
  ∀ (more : List Text) (next : Text),
    s.refusal? (s.offered ++ more ++ [next]) = s'.refusal? (s'.offered ++ more ++ [next])

/-- The sink after more writes, of which some have been accepted. -/
def after (s : Sink) (offered accepted : List Text) : Sink :=
  ⟨s.writes ++ accepted, s.offered ++ offered, s.refusal?⟩

/-- From `s` to `t` the same writes have been offered as from `s'` to `t'`, and the same accepted. -/
def WriteAlike (s s' t t' : Sink) : Prop :=
  ∃ offered accepted, t = s.after offered accepted ∧ t' = s'.after offered accepted

variable {s s' t t' u u' : Sink}

theorem JudgeAlike.refl (s : Sink) : s.JudgeAlike s := fun _ _ => rfl

theorem WriteAlike.refl (s s' : Sink) : WriteAlike s s' s s' := ⟨[], [], by simp [after], by simp [after]⟩

theorem WriteAlike.trans (h : WriteAlike s s' t t') (h' : WriteAlike t t' u u') : WriteAlike s s' u u' := by
  obtain ⟨offered, accepted, rfl, rfl⟩ := h
  obtain ⟨offered', accepted', rfl, rfl⟩ := h'
  exact ⟨offered ++ offered', accepted ++ accepted', by simp [after], by simp [after]⟩

theorem WriteAlike.eq (h : WriteAlike s s t t') : t = t' := by
  obtain ⟨offered, accepted, rfl, rfl⟩ := h
  rfl

theorem JudgeAlike.later (h : s.JudgeAlike s') (hwrites : WriteAlike s s' t t') : t.JudgeAlike t' := by
  obtain ⟨offered, accepted, rfl, rfl⟩ := hwrites
  intro more next
  simpa [after] using h (offered ++ more) next

theorem JudgeAlike.offer (h : s.JudgeAlike s') (text : Text) :
    ∃ refusal t t', s.offer text = (refusal, t) ∧ s'.offer text = (refusal, t') ∧ WriteAlike s s' t t' := by
  have hnext := h [] text
  simp only [List.append_nil] at hnext
  simp only [Sink.offer, ← hnext]
  cases s.refusal? (s.offered ++ [text]) with
  | none => exact ⟨none, _, _, rfl, rfl, [text], [text], rfl, rfl⟩
  | some cause => exact ⟨some cause, _, _, rfl, rfl, [text], [], by simp [after], by simp [after]⟩

end Sink

/-! ## Correspondences -/

/-- The names that occur in an expression. -/
def Expr.names : Expr → List Text
  | .binary _ _ left right => left.names ++ right.names
  | .group _ inner => inner.names
  | .unary _ _ operand => operand.names
  | .reference _ name => [name.lexeme]
  | .assign _ name value => name.lexeme :: value.names
  | .literal _ _ | .absent | .foreign _ _ => []

/-- A relation between scopes that programs keep and cannot see through, as long as they stay with certain
names. It may be another one for each number of blocks that have been opened. -/
structure Scope.Correspondence where
  /-- The scopes correspond, after so many blocks have been opened. -/
  Holds : Nat → Scope → Scope → Prop
  /-- The names that may be read and assigned to. -/
  Uses : Text → Prop
  /-- The names that may be declared, after so many blocks have been opened. -/
  Declares : Nat → Text → Prop
  get? : ∀ {k s s' name}, Holds k s s' → Uses name → s.get? name = s'.get? name
  contains : ∀ {k s s' name}, Holds k s s' → Declares k name → s.frame.contains name = s'.frame.contains name
  assign : ∀ {k s s' name} (v : Value), Holds k s s' → Uses name →
    Holds k (s.assign name v) (s'.assign name v)
  define : ∀ {k s s' name} (b : Binding), Holds k s s' → Declares k name →
    Holds k (s.define name b) (s'.define name b)
  enter : ∀ {k s s'}, Holds k s s' → Holds (k + 1) s.enter s'.enter
  leave : ∀ {k s s'}, Holds (k + 1) s s' → Holds k s.leave s'.leave

mutual

/-- A statement stays with the names of a correspondence. -/
def Stmt.Within (C : Scope.Correspondence) (k : Nat) : Stmt → Prop
  | .expr _ value => ∀ name ∈ value.names, C.Uses name
  | .println _ value => ∀ name ∈ value.names, C.Uses name
  | .declare _ name _ init => C.Declares k name.lexeme ∧ ∀ name ∈ init.names, C.Uses name
  | .block _ body => Stmt.AllWithin C (k + 1) body
  | .absent => True
  | .foreign _ _ => True

/-- All statements stay with the names of a correspondence. -/
def Stmt.AllWithin (C : Scope.Correspondence) (k : Nat) : List Stmt → Prop
  | [] => True
  | stmt :: rest => stmt.Within C k ∧ Stmt.AllWithin C k rest

end

/-! ## Expressions -/

namespace Scope.Correspondence

variable {C : Scope.Correspondence} {k : Nat}

/-- Two evaluations with one outcome and scopes that correspond. -/
inductive EvalsInStep (C : Scope.Correspondence) (k : Nat) :
    Except Diagnostic Value × Scope → Except Diagnostic Value × Scope → Prop
  | intro (result : Except Diagnostic Value) {s s' : Scope} :
      C.Holds k s s' → EvalsInStep C k (result, s) (result, s')

theorem eval {e : Expr} (he : ∀ name ∈ e.names, C.Uses name) {s s' : Scope} (h : C.Holds k s s') :
    C.EvalsInStep k (e.eval s) (e.eval s') := by
  induction e generalizing s s' with
  | literal | absent | foreign => exact .intro _ h
  | group _ inner ih => exact ih he h
  | unary c op operand ih =>
      have hoperand := ih he h
      simp only [Expr.eval]
      generalize operand.eval s = x, operand.eval s' = x' at hoperand ⊢
      cases hoperand with
      | intro result hafter => cases result <;> exact .intro _ hafter
  | binary c op left right ihl ihr =>
      simp only [Expr.names, List.forall_mem_append] at he
      have hleft := ihl he.1 h
      simp only [Expr.eval]
      generalize left.eval s = x, left.eval s' = x' at hleft ⊢
      cases hleft with
      | @intro l t t' hmiddle =>
          have hright := ihr he.2 hmiddle
          dsimp only
          generalize right.eval t = y, right.eval t' = y' at hright ⊢
          cases hright with
          | intro r hafter => exact .intro _ hafter
  | reference c name =>
      simp only [Expr.eval, ← C.get? h (he name.lexeme (by simp [Expr.names]))]
      cases s.get? name.lexeme <;> exact .intro _ h
  | assign c name value ih =>
      simp only [Expr.names, List.forall_mem_cons] at he
      obtain ⟨hname, hnames⟩ := he
      have hvalue := ih hnames h
      simp only [Expr.eval, ← C.get? h hname]
      cases s.get? name.lexeme with
      | none => exact .intro _ h
      | some b =>
          dsimp only
          by_cases hmut : b.isMutable
          · rw [if_pos hmut, if_pos hmut]
            generalize value.eval s = x, value.eval s' = x' at hvalue ⊢
            cases hvalue with
            | intro result hafter =>
                cases result with
                | error d => exact .intro _ hafter
                | ok v => exact .intro _ (C.assign v hafter hname)
          · rw [if_neg hmut, if_neg hmut]
            exact .intro _ h

/-! ## Statements -/

/-- Two runs from two states: they have one outcome, write the same, and leave scopes that correspond. -/
inductive RunsInStep (C : Scope.Correspondence) (k : Nat) (st st' : State) :
    Except Diagnostic Value × State → Except Diagnostic Value × State → Prop
  | intro (result : Except Diagnostic Value) {after after' : State} : C.Holds k after.scope after'.scope →
      Sink.WriteAlike st.sink st'.sink after.sink after'.sink →
      RunsInStep C k st st' (result, after) (result, after')

variable {st st' : State}

theorem println {e : Expr} (he : ∀ name ∈ e.names, C.Uses name) (c : Context)
    (h : C.Holds k st.scope st'.scope) (hsink : st.sink.JudgeAlike st'.sink) :
    C.RunsInStep k st st' ((Stmt.println c e).exec st) ((Stmt.println c e).exec st') := by
  have hvalue := C.eval he h
  simp only [Stmt.exec]
  generalize e.eval st.scope = x, e.eval st'.scope = x' at hvalue ⊢
  cases hvalue with
  | intro result hafter =>
      cases result with
      | error d => exact .intro _ hafter (.refl _ _)
      | ok v =>
          obtain ⟨refusal, t, t', hoffer, hoffer', hwrites⟩ := hsink.offer v.display.line
          simp only [hoffer, hoffer']
          cases refusal <;> exact .intro _ hafter hwrites

theorem declare {e : Expr} (he : ∀ name ∈ e.names, C.Uses name) (c : Context) {name : Token}
    (hname : C.Declares k name.lexeme) (isMutable : Bool) (h : C.Holds k st.scope st'.scope) :
    C.RunsInStep k st st' ((Stmt.declare c name isMutable e).exec st)
      ((Stmt.declare c name isMutable e).exec st') := by
  have hvalue := C.eval he h
  simp only [Stmt.exec, ← C.contains h hname]
  by_cases hc : st.scope.frame.contains name.lexeme
  · rw [if_pos hc, if_pos hc]
    exact .intro _ h (.refl _ _)
  · rw [if_neg hc, if_neg hc]
    generalize e.eval st.scope = x, e.eval st'.scope = x' at hvalue ⊢
    cases hvalue with
    | intro result hafter =>
        cases result with
        | error d => exact .intro _ hafter (.refl _ _)
        | ok v => exact .intro _ (C.define _ hafter hname) (.refl _ _)

mutual

theorem exec {k : Nat} {stmt : Stmt} (hstmt : stmt.Within C k) {st st' : State}
    (h : C.Holds k st.scope st'.scope) (hsink : st.sink.JudgeAlike st'.sink) :
    C.RunsInStep k st st' (stmt.exec st) (stmt.exec st') := by
  match stmt with
  | .expr _ e =>
      have hvalue := C.eval hstmt h
      simp only [Stmt.exec]
      generalize e.eval st.scope = x, e.eval st'.scope = x' at hvalue ⊢
      cases hvalue with
      | intro result hafter => exact .intro _ hafter (.refl _ _)
  | .println c e => exact C.println hstmt c h hsink
  | .declare c name isMutable e => exact C.declare hstmt.2 c hstmt.1 isMutable h
  | .block _ body =>
      have hbody : C.RunsInStep (k + 1) (st.withScope st.scope.enter) (st'.withScope st'.scope.enter)
          (Stmt.execFrom .nil body (st.withScope st.scope.enter))
          (Stmt.execFrom .nil body (st'.withScope st'.scope.enter)) :=
        execFrom hstmt .nil (C.enter h) hsink
      simp only [Stmt.exec]
      generalize Stmt.execFrom .nil body (st.withScope st.scope.enter) = x,
        Stmt.execFrom .nil body (st'.withScope st'.scope.enter) = x' at hbody ⊢
      cases hbody with
      | intro result hafter hwrites => cases result <;> exact .intro _ (C.leave hafter) hwrites
  | .absent => exact .intro _ h (.refl _ _)
  | .foreign _ _ => exact .intro _ h (.refl _ _)

theorem execFrom {k : Nat} {program : List Stmt} (hprogram : Stmt.AllWithin C k program) (v : Value)
    {st st' : State} (h : C.Holds k st.scope st'.scope) (hsink : st.sink.JudgeAlike st'.sink) :
    C.RunsInStep k st st' (Stmt.execFrom v program st) (Stmt.execFrom v program st') := by
  match program with
  | [] => exact .intro _ h (.refl _ _)
  | stmt :: rest =>
      have hfirst := exec hprogram.1 h hsink
      simp only [Stmt.execFrom]
      generalize stmt.exec st = x, stmt.exec st' = x' at hfirst ⊢
      cases hfirst with
      | @intro result middle middle' hmiddle hwrites =>
          cases result with
          | error d => exact .intro _ hmiddle hwrites
          | ok w =>
              have hrest := execFrom hprogram.2 w hmiddle (hsink.later hwrites)
              dsimp only
              generalize Stmt.execFrom w rest middle = y, Stmt.execFrom w rest middle' = y' at hrest ⊢
              cases hrest with
              | intro result hafter hwrites' => exact .intro _ hafter (hwrites.trans hwrites')

end

end Scope.Correspondence

end LetScript
