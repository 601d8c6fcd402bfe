import LetScript.Interpreter
import LetScript.Proofs.Scope.Keeping

/-!
# Execution and the scope

Evaluation keeps the scope, and so does every statement but a declaration that succeeds, which adds its
own name to the innermost frame. From one statement to whole histories of an interpreter: the global
names come in one after the other and stay.
-/

namespace LetScript

/-! ## Expressions -/

/-- Evaluation keeps the scope, also where it fails. -/
theorem Expr.eval_keeps (e : Expr) (s : Scope) : s.Keeps (e.eval s).2 := by
  induction e generalizing s with
  | literal | absent | foreign => exact .refl s
  | group _ inner ih => exact ih s
  | unary _ op operand ih =>
      have hoperand := ih s
      simp only [Expr.eval]
      split
      · rename_i heq
        rwa [heq] at hoperand
      · rename_i heq
        rwa [heq] at hoperand
  | binary _ op left right ihl ihr => exact (ihl s).trans (ihr _)
  | reference _ name =>
      simp only [Expr.eval]
      split <;> exact .refl s
  | assign _ name value ih =>
      have hvalue := ih s
      simp only [Expr.eval]
      split
      · exact .refl s
      · rename_i b hb
        split
        · rename_i hmut
          split
          · rename_i d s' heq
            rwa [heq] at hvalue
          · rename_i v s' heq
            -- the right side leaves the name as mutable as it was looked up
            rw [heq] at hvalue
            obtain ⟨b', hb', hkeeps⟩ := hvalue.get? hb
            exact hvalue.trans (Scope.keeps_assign hb' (hkeeps.isMutable.trans hmut) v)
        · exact .refl s

/-! ## Statements -/

/-- What a statement with a result does to the scope: a declaration that succeeds adds its name, with the
value of its initialiser, and nothing else adds anything. -/
def Stmt.ScopeEffect (stmt : Stmt) (result : Except Diagnostic Value) (s s' : Scope) : Prop :=
  match stmt, result with
  | .declare _ name isMutable init, .ok _ =>
    ∃ v, (init.eval s).1 = .ok v ∧ s.Adds name.lexeme ⟨isMutable, v⟩ s'
  | _, _ => s.Keeps s'

theorem Stmt.ScopeEffect.grows {stmt : Stmt} {result : Except Diagnostic Value} {s s' : Scope}
    (h : stmt.ScopeEffect result s s') : s.Grows s' := by
  unfold Stmt.ScopeEffect at h
  split at h
  · obtain ⟨v, -, hadds⟩ := h
    exact hadds.grows
  · exact h.grows

theorem Stmt.declare_scopeEffect (c : Context) (name : Token) (isMutable : Bool) (init : Expr) (st : State) :
    (Stmt.declare c name isMutable init).ScopeEffect ((Stmt.declare c name isMutable init).exec st).1
      st.scope ((Stmt.declare c name isMutable init).exec st).2.scope := by
  have hinit := init.eval_keeps st.scope
  simp only [Stmt.exec]
  by_cases hc : st.scope.frame.contains name.lexeme
  · rw [if_pos hc]
    exact .refl _
  · rw [if_neg hc]
    cases heval : init.eval st.scope with
    | mk result s =>
        rw [heval] at hinit
        cases result with
        | error d => exact hinit
        | ok v => exact ⟨v, by rw [heval], hinit.define (Option.not_isSome_iff_eq_none.1 hc) _⟩

mutual

/-- A statement does to the scope what its kind and its result say, whatever the sink refuses. -/
theorem Stmt.exec_scopeEffect (stmt : Stmt) (st : State) :
    stmt.ScopeEffect (stmt.exec st).1 st.scope (stmt.exec st).2.scope := by
  match stmt with
  | .expr _ value => exact value.eval_keeps st.scope
  | .println c value =>
      have hvalue := value.eval_keeps st.scope
      simp only [Stmt.exec]
      split
      · rename_i heq
        rwa [heq] at hvalue
      · rename_i heq
        rw [heq] at hvalue
        split <;> exact hvalue
  | .declare c name isMutable init => exact Stmt.declare_scopeEffect c name isMutable init st
  | .block c body =>
      have hbody := (Stmt.execFrom_grows .nil body (st.withScope st.scope.enter)).leave
      simp only [Stmt.exec]
      split
      · rename_i heq
        rwa [heq] at hbody
      · rename_i heq
        rwa [heq] at hbody
  | .absent => exact .refl st.scope
  | .foreign _ _ => exact .refl st.scope

theorem Stmt.execFrom_grows (v : Value) (program : List Stmt) (st : State) :
    st.scope.Grows (Stmt.execFrom v program st).2.scope := by
  match program with
  | [] => exact .refl st.scope
  | stmt :: rest =>
      have hstmt := (Stmt.exec_scopeEffect stmt st).grows
      simp only [Stmt.execFrom]
      split
      · rename_i heq
        rwa [heq] at hstmt
      · rename_i v' st' heq
        rw [heq] at hstmt
        exact hstmt.trans (Stmt.execFrom_grows v' rest st')

end

end LetScript
