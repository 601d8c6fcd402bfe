import LetScript.Proofs.Execution.Lockstep
import LetScript.Proofs.Scope.Places

/-!
# Execution is local

A statement reads no binding but those of the names that occur in it, and changes none but those of the
names that it declares or assigns to. This holds frame by frame and also where the statement fails.
-/

namespace LetScript

/-! ## The names of a statement -/

mutual

/-- The names that occur in a statement. -/
def Stmt.names : Stmt → List Text
  | .expr _ value => value.names
  | .println _ value => value.names
  | .declare _ name _ init => name.lexeme :: init.names
  | .block _ body => Stmt.namesAll body
  | .absent | .foreign _ _ => []

/-- The names that occur in statements. -/
def Stmt.namesAll : List Stmt → List Text
  | [] => []
  | stmt :: rest => stmt.names ++ Stmt.namesAll rest

end

/-- The names that an expression assigns to. -/
def Expr.targets : Expr → List Text
  | .binary _ _ left right => left.targets ++ right.targets
  | .group _ inner => inner.targets
  | .unary _ _ operand => operand.targets
  | .assign _ name value => name.lexeme :: value.targets
  | .literal _ _ | .reference _ _ | .absent | .foreign _ _ => []

mutual

/-- The names that a statement declares or assigns to. -/
def Stmt.targets : Stmt → List Text
  | .expr _ value => value.targets
  | .println _ value => value.targets
  | .declare _ name _ init => name.lexeme :: init.targets
  | .block _ body => Stmt.targetsAll body
  | .absent | .foreign _ _ => []

/-- The names that statements declare or assign to. -/
def Stmt.targetsAll : List Stmt → List Text
  | [] => []
  | stmt :: rest => stmt.targets ++ Stmt.targetsAll rest

end

/-! ## What is read -/

/-- Scopes that agree on names correspond for all programs in these names. -/
def Scope.agreement (names : Text → Prop) : Scope.Correspondence where
  Holds _ s s' := s.AgreeOn names s'
  Uses := names
  Declares _ := names
  get? h hname := h.get? hname
  contains h hname := h.contains hname
  assign v h hname := h.assign hname v
  define b h _ := h.define _ b
  enter h := h.enter
  leave h := h.leave

mutual

theorem Stmt.within_agreement {names : Text → Prop} {stmt : Stmt} (h : ∀ name ∈ stmt.names, names name)
    (k : Nat) : stmt.Within (Scope.agreement names) k := by
  match stmt with
  | .expr _ _ | .println _ _ => exact h
  | .declare _ _ _ _ => exact List.forall_mem_cons.1 h
  | .block _ _ => exact Stmt.allWithin_agreement h (k + 1)
  | .absent | .foreign _ _ => exact trivial

theorem Stmt.allWithin_agreement {names : Text → Prop} {program : List Stmt}
    (h : ∀ name ∈ Stmt.namesAll program, names name) (k : Nat) :
    Stmt.AllWithin (Scope.agreement names) k program := by
  match program with
  | [] => exact trivial
  | stmt :: rest =>
      obtain ⟨hfirst, hrest⟩ := List.forall_mem_append.1 h
      exact ⟨Stmt.within_agreement hfirst k, Stmt.allWithin_agreement hrest k⟩

end

/-! ## What is changed -/

/-- An evaluation does nothing to the scope but a number of assignments to the targets, one after another. -/
theorem Expr.eval_related {R : Scope → Scope → Prop} (hrefl : ∀ s, R s s)
    (htrans : ∀ {s s' s''}, R s s' → R s' s'' → R s s'') {e : Expr}
    (hassign : ∀ name ∈ e.targets, ∀ s v, R s (s.assign name v)) (s : Scope) : R s (e.eval s).2 := by
  induction e generalizing s with
  | literal | absent | foreign => exact hrefl s
  | group _ inner ih => exact ih hassign s
  | unary c op operand ih =>
      have hoperand := ih hassign s
      simp only [Expr.eval]
      split <;> (rename_i heq; rwa [heq] at hoperand)
  | binary c op left right ihl ihr =>
      obtain ⟨hl, hr⟩ := List.forall_mem_append.1 hassign
      exact htrans (ihl hl s) (ihr hr _)
  | reference c name =>
      simp only [Expr.eval]
      split <;> exact hrefl s
  | assign c name value ih =>
      obtain ⟨hname, htargets⟩ := List.forall_mem_cons.1 hassign
      have hvalue := ih htargets s
      simp only [Expr.eval]
      split
      · exact hrefl s
      · split
        · split
          · rename_i heq
            rwa [heq] at hvalue
          · rename_i heq
            rw [heq] at hvalue
            exact htrans hvalue (hname _ _)
        · exact hrefl s

section

variable {names : Text → Prop}

theorem Expr.eval_agreeOn {e : Expr} (he : ∀ name ∈ e.targets, ¬ names name) (s : Scope) :
    s.AgreeOn names (e.eval s).2 :=
  Expr.eval_related .refl .trans (fun name hname s v => .of_assign s (he name hname) v) s

mutual

theorem Stmt.exec_agreeOn {stmt : Stmt} (h : ∀ name ∈ stmt.targets, ¬ names name) (st : State) :
    st.scope.AgreeOn names (stmt.exec st).2.scope := by
  match stmt with
  | .expr _ e => exact e.eval_agreeOn h st.scope
  | .println c e =>
      have hvalue := e.eval_agreeOn h st.scope
      simp only [Stmt.exec]
      split
      · rename_i heq
        rwa [heq] at hvalue
      · rename_i heq
        rw [heq] at hvalue
        split <;> exact hvalue
  | .declare c name isMutable e =>
      obtain ⟨hname, htargets⟩ := List.forall_mem_cons.1 h
      have hvalue := e.eval_agreeOn htargets st.scope
      simp only [Stmt.exec]
      split
      · exact .refl _
      · split
        · rename_i heq
          rwa [heq] at hvalue
        · rename_i heq
          rw [heq] at hvalue
          exact hvalue.trans (.of_define _ hname _)
  | .block _ body =>
      have hbody := Stmt.execFrom_agreeOn h .nil (st.withScope st.scope.enter)
      simp only [Stmt.exec]
      split <;> (rename_i heq; rw [heq] at hbody; exact hbody.leave)
  | .absent | .foreign _ _ => exact .refl _

theorem Stmt.execFrom_agreeOn {program : List Stmt} (h : ∀ name ∈ Stmt.targetsAll program, ¬ names name)
    (v : Value) (st : State) : st.scope.AgreeOn names (Stmt.execFrom v program st).2.scope := by
  match program with
  | [] => exact .refl _
  | stmt :: rest =>
      obtain ⟨hfirst, hrest⟩ := List.forall_mem_append.1 h
      have hmiddle := Stmt.exec_agreeOn hfirst st
      simp only [Stmt.execFrom]
      split
      · rename_i heq
        rwa [heq] at hmiddle
      · rename_i w st' heq
        rw [heq] at hmiddle
        exact hmiddle.trans (Stmt.execFrom_agreeOn hrest w st')

end

end

/-! ## Locality -/

/-- A statement depends on nothing but the bindings of the names in it, frame by frame, and on how writes are
judged. Run in two states that agree on these, it has one outcome, prints the same and leaves states that
agree again; and either run leaves alone what the statement neither declares nor assigns to. -/
theorem execution_is_local (stmt : Stmt) {st st' : State} (hscope : st.scope.AgreeOn (· ∈ stmt.names) st'.scope)
    (hsink : st.sink.JudgeAlike st'.sink) :
    (stmt.exec st).1 = (stmt.exec st').1 ∧
    Sink.WriteAlike st.sink st'.sink (stmt.exec st).2.sink (stmt.exec st').2.sink ∧
    (stmt.exec st).2.scope.AgreeOn (· ∈ stmt.names) (stmt.exec st').2.scope ∧
    st.scope.AgreeOn (· ∉ stmt.targets) (stmt.exec st).2.scope ∧
    st'.scope.AgreeOn (· ∉ stmt.targets) (stmt.exec st').2.scope := by
  have hwithin : stmt.Within (Scope.agreement (· ∈ stmt.names)) 0 := Stmt.within_agreement (fun _ h => h) 0
  have hruns := (Scope.agreement (· ∈ stmt.names)).exec hwithin hscope hsink
  have hrest : ∀ name ∈ stmt.targets, ¬ name ∉ stmt.targets := fun _ h => not_not_intro h
  have hleft := Stmt.exec_agreeOn hrest st
  have hright := Stmt.exec_agreeOn hrest st'
  generalize stmt.exec st = x, stmt.exec st' = x' at hruns hleft hright ⊢
  cases hruns with
  | intro result hafter hwrites => exact ⟨rfl, hwrites, hafter, hleft, hright⟩

/-- Where a name `a` is bound besides, a block that copies `x`, assigns to it, prints the copy and then fails
to assign to the copy does the same as without it, and `a` stays as it is. -/
theorem execution_is_local_shadowed :
    let c : Context := .atLine [] 1
    let token (s : String) : Token := ⟨.identifier, Text.ofString s, .none, 1⟩
    let truth : Expr := .literal c ⟨.keyword .trueKw, Keyword.trueKw.spelling, .none, 1⟩
    let stmt : Stmt := .block c [.declare c (token "y") false (.reference c (token "x")),
      .expr c (.assign c (token "x") truth), .println c (.reference c (token "y")),
      .expr c (.assign c (token "y") truth)]
    let base : Scope := Scope.enter (.root (Frame.empty.define (Text.ofString "x") ⟨true, .nil⟩))
    let st : State := ⟨base, .unlimited⟩
    let st' : State := ⟨base.define (Text.ofString "a") ⟨true, .nil⟩, Sink.unlimited.write []⟩
    (stmt.exec st').1 = .error ⟨c, .immutable (Text.ofString "y")⟩ ∧
      (stmt.exec st').2.sink.writes = [[], Text.ofString "()\n"] ∧
      (stmt.exec st).1 = (stmt.exec st').1 ∧
      Sink.WriteAlike st.sink st'.sink (stmt.exec st).2.sink (stmt.exec st').2.sink ∧
      (stmt.exec st).2.scope.AgreeOn (· ∈ stmt.names) (stmt.exec st').2.scope ∧
      st.scope.AgreeOn (· ∉ stmt.targets) (stmt.exec st).2.scope ∧
      st'.scope.AgreeOn (· ∉ stmt.targets) (stmt.exec st').2.scope := by
  intro c token truth stmt base st st'
  have hfree : Text.ofString "a" ∉ stmt.names := by decide +kernel
  have hscope : st.scope.AgreeOn (· ∈ stmt.names) st'.scope := .of_define base hfree _
  have hsink : st.sink.JudgeAlike st'.sink := fun _ _ => rfl
  have hwrites : (stmt.exec st').2.sink.writes = [[], Text.ofString "()\n"] := by decide +kernel
  exact ⟨rfl, hwrites, execution_is_local stmt hscope hsink⟩

end LetScript
