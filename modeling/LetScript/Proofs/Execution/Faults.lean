import LetScript.Interpreter

/-!
# Faults of execution

The faults of a running program are its own: none of them looks like a source that cannot be read, or like
input that stops too early. A run with such a fault has read its source in vain, and has executed nothing.
The places of its diagnostics are those of the tree that has been run.
-/

namespace LetScript

/-- The faults of an operator and its operands. -/
def Fault.OfOperator : Fault → Prop
  | unknownOperator _ | unsupportedOperand _ _ | unsupportedOperands _ _ _ | divisionByZero _ _ => True
  | _ => False

/-- The faults that a program can meet while it runs. -/
def Fault.Running : Fault → Prop
  | alreadyDeclared _ | notDefined _ | immutable _ | unknownOperator _ | unsupportedOperand _ _
  | unsupportedOperands _ _ _ | divisionByZero _ _ | writeFailed _ | foreignStatement _
  | foreignExpression _ => True
  | _ => False

theorem Fault.OfOperator.running {fault : Fault} (h : fault.OfOperator) : fault.Running := by
  cases fault <;> simp_all [Fault.OfOperator, Fault.Running]

theorem Fault.OfOperator.cls_ne_name {fault : Fault} (h : fault.OfOperator) : fault.cls ≠ .name := by
  cases fault <;> simp_all [Fault.OfOperator, Fault.cls]

theorem Fault.Running.incomplete {fault : Fault} (h : fault.Running) : fault.incomplete = false := by
  cases fault <;> simp_all [Fault.Running, Fault.incomplete]

theorem Fault.Running.cls_ne_lex {fault : Fault} (h : fault.Running) : fault.cls ≠ .lex := by
  cases fault <;> simp_all [Fault.Running, Fault.cls]

/-! ## Operators -/

theorem Value.infixFault_cls (op : Token.Kind) (left right : Value) :
    (infixFault op left right).cls = .operator := by
  unfold infixFault
  split <;> rfl

theorem Value.infixFault_ofOperator (op : Token.Kind) (left right : Value) :
    (infixFault op left right).OfOperator := by
  unfold infixFault
  split <;> trivial

theorem Value.arithmetic?_error {op : Token.Kind} {a b : Float} {fault : Fault}
    (h : arithmetic? op a b = some (.error fault)) : fault.OfOperator := by
  unfold arithmetic? at h
  split at h
  case h_4 =>
      split at h
      · cases h
        trivial
      · cases h
  all_goals cases h

theorem Value.compute_error {op : Token.Kind} {left right : Value} {fault : Fault}
    (h : compute op left right = .error fault) : fault.OfOperator := by
  unfold compute at h
  split at h
  · split at h
    · rename_i heq
      rw [h] at heq
      exact arithmetic?_error heq
    · cases h
      exact infixFault_ofOperator op left right
  · split at h
    · cases h
    · cases h
      exact infixFault_ofOperator op left right

theorem Value.infixOp_error {op : Token.Kind} {left right : Value} {fault : Fault}
    (h : infixOp op left right = .error fault) : fault.OfOperator := by
  unfold infixOp at h
  split at h
  · cases h
  · cases h
  · exact compute_error h

theorem Value.signOp_error {op : Token.Kind} {operand : Value} {fault : Fault}
    (h : signOp op operand = .error fault) : fault.OfOperator := by
  unfold signOp at h
  split at h
  · cases h
  · split at h <;> cases h <;> trivial

/-! ## Outcomes -/

/-- The outcome is a value, or a diagnostic of this kind. -/
def Raises (P : Diagnostic → Prop) (result : Except Diagnostic Value) : Prop := ∀ d, result = .error d → P d

section

variable {P Q : Diagnostic → Prop} {c : Context} {result left right : Except Diagnostic Value}

theorem raises_ok (v : Value) : Raises P (.ok v) := by
  intro d h
  cases h

theorem raises_error {d : Diagnostic} (h : P d) : Raises P (.error d) := by
  intro d' h'
  cases h'
  exact h

theorem Raises.mono (h : Raises P result) (hPQ : ∀ d, P d → Q d) : Raises Q result :=
  fun d hd => hPQ d (h d hd)

theorem Context.place_raises {computed : Except Fault Value}
    (hcomputed : ∀ fault, computed = .error fault → fault.OfOperator)
    (hP : ∀ fault : Fault, fault.OfOperator → P ⟨c, fault⟩) : Raises P (c.place computed) := by
  cases computed with
  | ok v => exact raises_ok v
  | error fault => exact raises_error (hP fault (hcomputed fault rfl))

/-- An infix operator adds its own faults to those of its operands. -/
theorem Expr.combine_raises {op : Token} (hl : Raises P left) (hr : Raises P right)
    (hP : ∀ fault : Fault, fault.OfOperator → P ⟨c, fault⟩) : Raises P (Expr.combine c op left right) := by
  cases left with
  | error d => exact hl
  | ok v =>
      cases right with
      | error d => exact hr
      | ok w => exact Context.place_raises (fun _ => Value.infixOp_error) hP

end

/-! ## Places -/

/-- The places of an expression. -/
def Expr.places : Expr → List Context
  | .binary c _ left right => c :: (left.places ++ right.places)
  | .group c inner => c :: inner.places
  | .literal c _ => [c]
  | .unary c _ operand => c :: operand.places
  | .reference c _ => [c]
  | .assign c _ value => c :: value.places
  | .absent => [.nowhere]
  | .foreign c _ => [c]

mutual

/-- The places of a statement. -/
def Stmt.places : Stmt → List Context
  | .expr c value => c :: value.places
  | .println c value => c :: value.places
  | .declare c _ _ init => c :: init.places
  | .block c body => c :: Stmt.placesAll body
  | .absent => [.nowhere]
  | .foreign c _ => [c]

/-- The places of statements. -/
def Stmt.placesAll : List Stmt → List Context
  | [] => []
  | stmt :: rest => stmt.places ++ Stmt.placesAll rest

end

/-- A diagnostic that running a tree with these places may end with. -/
structure Diagnostic.OfRun (places : List Context) (d : Diagnostic) : Prop where
  running : d.fault.Running
  context : d.context ∈ places

theorem Raises.ofRun_mono {places places' : List Context} {result : Except Diagnostic Value}
    (h : Raises (Diagnostic.OfRun places) result) (hsub : places ⊆ places') :
    Raises (Diagnostic.OfRun places') result := h.mono fun _ hd => ⟨hd.running, hsub hd.context⟩

/-! ## Expressions and statements -/

theorem Expr.eval_raises (e : Expr) (s : Scope) : Raises (Diagnostic.OfRun e.places) (e.eval s).1 := by
  induction e generalizing s with
  | literal => exact raises_ok _
  | absent | foreign => exact raises_error ⟨trivial, .head _⟩
  | group _ inner ih => exact (ih s).ofRun_mono (List.subset_cons_self ..)
  | unary c op operand ih =>
      have hoperand := (ih s).ofRun_mono (List.subset_cons_self c _)
      simp only [Expr.eval]
      split
      · rename_i heq
        rwa [heq] at hoperand
      · exact Context.place_raises (fun _ => Value.signOp_error) fun _ h => ⟨h.running, .head _⟩
  | binary c op left right ihl ihr =>
      refine Expr.combine_raises ((ihl s).ofRun_mono fun _ h => ?_) ((ihr _).ofRun_mono fun _ h => ?_)
        fun _ h => ⟨h.running, .head _⟩
      · exact .tail _ (List.mem_append_left _ h)
      · exact .tail _ (List.mem_append_right _ h)
  | reference _ name =>
      simp only [Expr.eval]
      split
      · exact raises_error ⟨trivial, .head _⟩
      · exact raises_ok _
  | assign c name value ih =>
      have hvalue := (ih s).ofRun_mono (List.subset_cons_self c _)
      simp only [Expr.eval]
      split
      · exact raises_error ⟨trivial, .head _⟩
      · split
        · split
          · rename_i heq
            rwa [heq] at hvalue
          · exact raises_ok _
        · exact raises_error ⟨trivial, .head _⟩

mutual

theorem Stmt.exec_raises (stmt : Stmt) (st : State) :
    Raises (Diagnostic.OfRun stmt.places) (stmt.exec st).1 := by
  match stmt with
  | .expr _ value => exact (value.eval_raises st.scope).ofRun_mono (List.subset_cons_self ..)
  | .println c value =>
      have hvalue := (value.eval_raises st.scope).ofRun_mono (List.subset_cons_self c _)
      simp only [Stmt.exec]
      split
      · rename_i heq
        rwa [heq] at hvalue
      · split
        · exact raises_ok _
        · exact raises_error ⟨trivial, .head _⟩
  | .declare c name isMutable init =>
      have hinit := (init.eval_raises st.scope).ofRun_mono (List.subset_cons_self c _)
      simp only [Stmt.exec]
      split
      · exact raises_error ⟨trivial, .head _⟩
      · split
        · rename_i heq
          rwa [heq] at hinit
        · exact raises_ok _
  | .block c body =>
      have hbody := (Stmt.execFrom_raises .nil body (st.withScope st.scope.enter)).ofRun_mono
        (List.subset_cons_self c _)
      simp only [Stmt.exec]
      split
      · rename_i heq
        rwa [heq] at hbody
      · exact raises_ok _
  | .absent => exact raises_error ⟨trivial, .head _⟩
  | .foreign _ _ => exact raises_error ⟨trivial, .head _⟩

theorem Stmt.execFrom_raises (v : Value) (program : List Stmt) (st : State) :
    Raises (Diagnostic.OfRun (Stmt.placesAll program)) (Stmt.execFrom v program st).1 := by
  match program with
  | [] => exact raises_ok v
  | stmt :: rest =>
      have hstmt := (Stmt.exec_raises stmt st).ofRun_mono (List.subset_append_left _ (Stmt.placesAll rest))
      simp only [Stmt.execFrom]
      split
      · rename_i heq
        rwa [heq] at hstmt
      · exact (Stmt.execFrom_raises _ rest _).ofRun_mono (List.subset_append_right ..)

end

/-! ## Runs -/

/-- A run that fails for want of input has not executed anything. -/
theorem Interpreter.run_of_incomplete {it : Interpreter} {source text : Text} {d : Diagnostic}
    (h : (it.run source text).1 = .error d) (hd : d.fault.incomplete) :
    parse source it.mode text = .error d ∧ (it.run source text).2 = { it with hadError := true } := by
  unfold Interpreter.run at h ⊢
  cases hparse : parse source it.mode text with
  | error d' =>
      rw [hparse] at h
      cases h
      exact ⟨rfl, rfl⟩
  | ok program =>
      rw [hparse] at h
      have hraises := Stmt.execFrom_raises .nil program it.state
      simp only [Stmt.execAll] at h
      split at h
      · rename_i heq
        rw [heq] at hraises
        cases h
        rw [(hraises d rfl).running.incomplete] at hd
        cases hd
      · cases h

end LetScript
