import LetScript.Proofs.Execution.Scoping

/-!
# The global names of an interpreter

A history is a sequence of calls to one interpreter. Its moments are the states between two calls and,
inside a run, those between two statements. From each moment to every later one the global frame grows.
-/

namespace LetScript

/-! ## Histories -/

/-- What can be asked of an interpreter. -/
inductive Interpreter.Call where
  | run (source text : Text)
  | runInput (source : Text) (input : Input)
  | reset

/-- The interpreter after a call, whatever came out of it. -/
def Interpreter.Call.perform : Call → Interpreter → Interpreter
  | run source text, it => (it.run source text).2
  | runInput source input, it => (it.runInput source input).2
  | reset, it => it.reset

/-- The interpreter after calls in order. -/
def Interpreter.performAll (calls : List Call) (it : Interpreter) : Interpreter :=
  calls.foldl (fun it call => call.perform it) it

/-- The states before, between and after statements, up to the first failure. -/
def Stmt.moments : List Stmt → State → List State
  | [], st => [st]
  | stmt :: rest, st =>
    match stmt.exec st with
    | (.error _, st') => [st, st']
    | (.ok _, st') => st :: Stmt.moments rest st'

/-- The moments of a run. -/
def Interpreter.runMoments (it : Interpreter) (source text : Text) : List State :=
  match parse source it.mode text with
  | .error _ => []
  | .ok program => Stmt.moments program it.state

/-- The moments of a call. -/
def Interpreter.Call.moments : Call → Interpreter → List State
  | run source text, it => it.runMoments source text
  | runInput source input, it =>
    match input.failure with
    | some _ => []
    | none => it.runMoments source input.data
  | reset, _ => []

/-- The moments of a history: between calls and inside them. -/
def Interpreter.moments : List Call → Interpreter → List State
  | [], it => [it.state]
  | call :: later, it => it.state :: (call.moments it ++ moments later (call.perform it))

/-! ## Growth -/

/-- Moments between two scopes: they grow from the first scope, from one to the next, and to the last. -/
structure Growing (first : Scope) (moments : List State) (last : Scope) : Prop where
  whole : first.Grows last
  from_first : ∀ st ∈ moments, first.Grows st.scope
  to_last : ∀ st ∈ moments, st.scope.Grows last
  pairwise : moments.Pairwise fun st st' => st.scope.Grows st'.scope

namespace Growing

theorem nil {first last : Scope} (h : first.Grows last) : Growing first [] last :=
  ⟨h, by simp, by simp, .nil⟩

theorem cons {st : State} {moments : List State} {last : Scope} (h : Growing st.scope moments last) :
    Growing st.scope (st :: moments) last := by
  refine ⟨h.whole, ?_, ?_, List.pairwise_cons.2 ⟨h.from_first, h.pairwise⟩⟩
  · exact List.forall_mem_cons.2 ⟨.refl _, h.from_first⟩
  · exact List.forall_mem_cons.2 ⟨h.whole, h.to_last⟩

theorem append {first middle last : Scope} {before after : List State} (h : Growing first before middle)
    (h' : Growing middle after last) : Growing first (before ++ after) last := by
  refine ⟨h.whole.trans h'.whole, ?_, ?_, List.pairwise_append.2 ⟨h.pairwise, h'.pairwise, ?_⟩⟩
  · exact List.forall_mem_append.2 ⟨h.from_first, fun st hst => h.whole.trans (h'.from_first st hst)⟩
  · exact List.forall_mem_append.2 ⟨fun st hst => (h.to_last st hst).trans h'.whole, h'.to_last⟩
  · intro st hst st' hst'
    exact (h.to_last st hst).trans (h'.from_first st' hst')

end Growing

/-- One statement after the other. -/
theorem Stmt.moments_growing (v : Value) (program : List Stmt) (st : State) :
    Growing st.scope (Stmt.moments program st) (Stmt.execFrom v program st).2.scope := by
  induction program generalizing v st with
  | nil => exact .cons (.nil (.refl _))
  | cons stmt rest ih =>
      have hstmt := (Stmt.exec_scopeEffect stmt st).grows
      simp only [Stmt.moments, Stmt.execFrom]
      cases hexec : stmt.exec st with
      | mk result st' =>
          rw [hexec] at hstmt
          cases result with
          | error d => exact .cons (.append (.nil hstmt) (.cons (.nil (.refl _))))
          | ok v' => exact .cons (.append (.nil hstmt) (ih v' st'))

theorem Interpreter.runMoments_growing (it : Interpreter) (source text : Text) :
    Growing it.state.scope (it.runMoments source text) (it.run source text).2.state.scope := by
  simp only [runMoments, run]
  cases hparse : parse source it.mode text with
  | error d => exact .nil (.refl _)
  | ok program =>
      have hprogram := Stmt.moments_growing .nil program it.state
      simp only [Stmt.execAll]
      cases hexec : Stmt.execFrom .nil program it.state with
      | mk result st =>
          rw [hexec] at hprogram
          cases result with
          | error d => exact hprogram
          | ok v => exact hprogram

theorem Interpreter.Call.moments_growing (call : Call) (it : Interpreter) :
    Growing it.state.scope (call.moments it) (call.perform it).state.scope := by
  cases call with
  | run source text => exact it.runMoments_growing source text
  | runInput source input =>
      simp only [Call.moments, Call.perform, Interpreter.runInput]
      cases hfail : input.failure with
      | some cause => exact .nil (.refl _)
      | none =>
          have hrun := it.runMoments_growing source input.data
          cases hresult : it.run source input.data with
          | mk result it' =>
              rw [hresult] at hrun
              cases result with
              | error d => exact hrun
              | ok v => exact hrun
  | reset => exact .nil (.refl _)

/-- One call after the other. -/
theorem Interpreter.moments_growing (calls : List Call) (it : Interpreter) :
    Growing it.state.scope (moments calls it) (performAll calls it).state.scope := by
  induction calls generalizing it with
  | nil => exact .cons (.nil (.refl _))
  | cons call later ih => exact .cons (.append (call.moments_growing it) (ih _))

/-! ## Global names -/

/-- What stays of the global names from a moment to a later one, both outside of all blocks. -/
structure State.GlobalsStay (st st' : State) : Prop where
  outside : ∃ f, st.scope = .root f
  outside_later : ∃ f, st'.scope = .root f
  /-- No name is lost, none changes its mutability, and the immutable ones keep their values. -/
  grows : st.scope.globals.Grows st'.scope.globals
  /-- A name cannot be declared again. -/
  declared : ∀ (c : Context) (name : Token) (isMutable : Bool) (init : Expr),
    st.scope.globals.contains name.lexeme →
      (Stmt.declare c name isMutable init).exec st' = (.error ⟨c, .alreadyDeclared name.lexeme⟩, st')

theorem Frame.Grows.contains {f f' : Frame} (h : f.Grows f') {name : Text} (hname : f.contains name) :
    f'.contains name := by
  obtain ⟨b, hb⟩ := Option.isSome_iff_exists.1 hname
  obtain ⟨b', hb', -⟩ := h name b hb
  exact Option.isSome_iff_exists.2 ⟨b', hb'⟩

theorem Scope.Grows.exists_root {f : Frame} {s : Scope} (h : (Scope.root f).Grows s) :
    ∃ f', s = .root f' ∧ f.Grows f' := by
  cases h with
  | root hf => exact ⟨_, rfl, hf⟩

theorem State.globalsStay_of_grows {f : Frame} {st st' : State} (h : (Scope.root f).Grows st.scope)
    (h' : st.scope.Grows st'.scope) : st.GlobalsStay st' := by
  obtain ⟨g, hg, -⟩ := h.exists_root
  rw [hg] at h'
  obtain ⟨g', hg', hgrows⟩ := h'.exists_root
  refine ⟨⟨g, hg⟩, ⟨g', hg'⟩, ?_, ?_⟩
  · rw [hg, hg']
    exact hgrows
  · intro c name isMutable init hname
    rw [hg] at hname
    have hlater : st'.scope.frame.contains name.lexeme := by
      rw [hg']
      exact hgrows.contains hname
    rw [Stmt.exec, if_pos hlater]

theorem Interpreter.performAll_grows (calls : List Call) (it : Interpreter) :
    it.state.scope.Grows (performAll calls it).state.scope :=
  (moments_growing calls it).whole

/-- Every statement leaves the frames around it with their names, their mutability and their immutable
values, except for the one name that a successful declaration adds. So the global names of an interpreter
stay, between any two calls and between any two statements that it runs. -/
theorem scope_kept_over_histories :
    (∀ (stmt : Stmt) (st : State),
      stmt.ScopeEffect (stmt.exec st).1 st.scope (stmt.exec st).2.scope) ∧
    ∀ (mode : Mode) (sink : Sink) (calls later : List Interpreter.Call),
      let it := Interpreter.performAll calls (.new mode sink)
      it.state.GlobalsStay (Interpreter.performAll later it).state ∧
      (Interpreter.moments calls (.new mode sink)).Pairwise State.GlobalsStay := by
  refine ⟨Stmt.exec_scopeEffect, fun mode sink calls later => ⟨?_, ?_⟩⟩
  · have hfirst := Interpreter.performAll_grows calls (.new mode sink)
    exact State.globalsStay_of_grows hfirst (Interpreter.performAll_grows later _)
  · have hgrowing := Interpreter.moments_growing calls (.new mode sink)
    refine hgrowing.pairwise.imp_of_mem fun hst _ h => ?_
    exact State.globalsStay_of_grows (hgrowing.from_first _ hst) h

end LetScript
