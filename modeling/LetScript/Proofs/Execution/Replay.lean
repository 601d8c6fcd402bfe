import LetScript.Proofs.Execution.Faults
import LetScript.Proofs.Syntax.Relocation

/-!
# The same statement elsewhere

What a statement of a source does depends on the state alone and not on where it stands, which only a
diagnostic tells: execution copies the places of a tree into its diagnostics and does not look at them. Nor does
it depend on what has been printed before, as long as the output is accepted.
-/

namespace LetScript

open Grammar

/-! ## Sinks that accept everything -/

namespace Sink

/-- No write is ever refused. -/
def Accepts (s : Sink) : Prop := ∀ offered, s.refusal? offered = none

/-- The sink after writes that have been accepted. -/
def appended (s : Sink) (texts : List Text) : Sink := ⟨s.writes ++ texts, s.offered ++ texts, s.refusal?⟩

theorem Accepts.appended {s : Sink} (h : s.Accepts) (texts : List Text) : (s.appended texts).Accepts := h

theorem Accepts.offer {s : Sink} (h : s.Accepts) (text : Text) :
    s.offer text = (none, s.appended [text]) := by
  simp only [Sink.offer]
  rw [h]
  rfl

theorem Accepts.write {s : Sink} (h : s.Accepts) (text : Text) : s.write text = s.appended [text] := by
  rw [Sink.write, h.offer]

@[simp] theorem appended_nil (s : Sink) : s.appended [] = s := by simp [appended]

@[simp] theorem appended_appended (s : Sink) (texts more : List Text) :
    (s.appended texts).appended more = s.appended (texts ++ more) := by simp [appended]

@[simp] theorem appended_writes (s : Sink) (texts : List Text) :
    (s.appended texts).writes = s.writes ++ texts := rfl

theorem unlimited_accepts : unlimited.Accepts := fun _ => rfl

end Sink

/-! ## Trees with other places -/

/-- A place in a tree, and what the diagnostics of the relabelled tree have for it. What is absent is nowhere in
both. -/
inductive Relabelling.Shows (ρ : Relabelling) : Context → Context → Prop
  | there (c : Context) : Shows ρ c (ρ.context c)
  | nowhere : Shows ρ .nowhere .nowhere

/-- Two runs that end alike: in the same state, with one value or with one fault, shown at related places. -/
inductive EndAlike (P : Context → Context → Prop) {σ : Type} :
    Except Diagnostic Value × σ → Except Diagnostic Value × σ → Prop
  | ok (v : Value) (s : σ) : EndAlike P (.ok v, s) (.ok v, s)
  | error {c c' : Context} (h : P c c') (fault : Fault) (s : σ) :
      EndAlike P (.error ⟨c, fault⟩, s) (.error ⟨c', fault⟩, s)

/-- An operator on the same operands. -/
theorem EndAlike.place {P : Context → Context → Prop} {σ : Type} {c c' : Context} (h : P c c')
    (result : Except Fault Value) (s : σ) : EndAlike P (c.place result, s) (c'.place result, s) := by
  cases result with
  | ok v => exact .ok v s
  | error fault => exact .error h fault s

section

variable (ρ : Relabelling)

theorem Expr.eval_relabel (e : Expr) (s : Scope) : EndAlike ρ.Shows (e.eval s) ((e.relabel ρ).eval s) := by
  induction e generalizing s with
  | literal => exact .ok _ s
  | absent => exact .error .nowhere _ s
  | foreign c => exact .error (.there c) _ s
  | group _ inner ih => exact ih s
  | unary c op operand ih =>
      have hoperand := ih s
      simp only [Expr.relabel, Expr.eval]
      generalize operand.eval s = x, (operand.relabel ρ).eval s = x' at hoperand ⊢
      cases hoperand with
      | ok v s => exact .place (.there c) _ s
      | error h fault s => exact .error h fault s
  | binary c op left right ihl ihr =>
      have hleft := ihl s
      simp only [Expr.relabel, Expr.eval]
      generalize left.eval s = x, (left.relabel ρ).eval s = x' at hleft ⊢
      cases hleft with
      | ok v s =>
          have hright := ihr s
          dsimp only
          generalize right.eval s = y, (right.relabel ρ).eval s = y' at hright ⊢
          cases hright with
          | ok w s => exact .place (.there c) _ s
          | error h fault s => exact .error h fault s
      | error h fault s =>
          -- the right operand is evaluated all the same, for its assignments
          have hright := ihr s
          dsimp only
          generalize right.eval s = y, (right.relabel ρ).eval s = y' at hright ⊢
          cases hright with
          | ok w s => exact .error h fault s
          | error _ _ s => exact .error h fault s
  | reference c name =>
      simp only [Expr.relabel, Expr.eval, Token.relabel_lexeme]
      cases s.get? name.lexeme with
      | none => exact .error (.there c) _ s
      | some b => exact .ok _ s
  | assign c name value ih =>
      have hvalue := ih s
      simp only [Expr.relabel, Expr.eval, Token.relabel_lexeme]
      cases s.get? name.lexeme with
      | none => exact .error (.there c) _ s
      | some b =>
          dsimp only
          split
          · generalize value.eval s = x, (value.relabel ρ).eval s = x' at hvalue ⊢
            cases hvalue with
            | ok v s => exact .ok _ _
            | error h fault s => exact .error h fault s
          · exact .error (.there c) _ s

theorem Stmt.println_relabel (c : Context) (value : Expr) (st : State) :
    EndAlike ρ.Shows ((Stmt.println c value).exec st) (((Stmt.println c value).relabel ρ).exec st) := by
  have hvalue := value.eval_relabel ρ st.scope
  simp only [Stmt.relabel, Stmt.exec]
  generalize value.eval st.scope = x, (value.relabel ρ).eval st.scope = x' at hvalue ⊢
  cases hvalue with
  | error h fault s => exact .error h fault _
  | ok v s =>
      dsimp only
      cases st.sink.offer v.display.line with
      | mk refusal sink =>
          cases refusal with
          | none => exact .ok _ _
          | some cause => exact .error (.there c) _ _

theorem Stmt.declare_relabel (c : Context) (name : Token) (isMutable : Bool) (init : Expr) (st : State) :
    EndAlike ρ.Shows ((Stmt.declare c name isMutable init).exec st)
      (((Stmt.declare c name isMutable init).relabel ρ).exec st) := by
  have hinit := init.eval_relabel ρ st.scope
  by_cases hc : st.scope.frame.contains name.lexeme
  · simp only [Stmt.relabel, Stmt.exec, Token.relabel_lexeme, hc, ↓reduceIte]
    exact .error (.there c) _ st
  · simp only [Stmt.relabel, Stmt.exec, Token.relabel_lexeme, hc]
    generalize init.eval st.scope = x, (init.relabel ρ).eval st.scope = x' at hinit ⊢
    cases hinit with
    | ok v s => exact .ok _ _
    | error h fault s => exact .error h fault _

mutual

theorem Stmt.exec_relabel (stmt : Stmt) (st : State) :
    EndAlike ρ.Shows (stmt.exec st) ((stmt.relabel ρ).exec st) := by
  match stmt with
  | .expr _ value =>
      have hvalue := value.eval_relabel ρ st.scope
      simp only [Stmt.relabel, Stmt.exec]
      generalize value.eval st.scope = x, (value.relabel ρ).eval st.scope = x' at hvalue ⊢
      cases hvalue with
      | ok v s => exact .ok v _
      | error h fault s => exact .error h fault _
  | .println c value => exact Stmt.println_relabel ρ c value st
  | .declare c name isMutable init => exact Stmt.declare_relabel ρ c name isMutable init st
  | .block _ body =>
      have hbody := Stmt.execFrom_relabel .nil body (st.withScope st.scope.enter)
      simp only [Stmt.relabel, Stmt.exec]
      generalize Stmt.execFrom .nil body (st.withScope st.scope.enter) = x,
        Stmt.execFrom .nil (Stmt.relabelAll ρ body) (st.withScope st.scope.enter) = x' at hbody ⊢
      cases hbody with
      | ok v st => exact .ok _ _
      | error h fault st => exact .error h fault _
  | .absent => exact .error .nowhere _ st
  | .foreign c _ => exact .error (.there c) _ st

/-- Trees that have been given other places run as before, and their diagnostics show the other places. -/
theorem Stmt.execFrom_relabel (v : Value) (program : List Stmt) (st : State) :
    EndAlike ρ.Shows (Stmt.execFrom v program st) (Stmt.execFrom v (Stmt.relabelAll ρ program) st) := by
  match program with
  | [] => exact .ok v st
  | stmt :: rest =>
      have hfirst := Stmt.exec_relabel stmt st
      simp only [Stmt.relabelAll, Stmt.execFrom]
      generalize stmt.exec st = x, (stmt.relabel ρ).exec st = x' at hfirst ⊢
      cases hfirst with
      | ok w st => exact Stmt.execFrom_relabel w rest st
      | error h fault st => exact .error h fault st

end

end

/-! ## Statements of a source -/

section

variable {source : Text} {ts : List Token}

/-- The place is in the root part of the source. -/
def Context.In (source : Text) (c : Context) : Prop := c.source = source ∧ c.part = root

/-- A tree that a source spells stands in that source. -/
theorem Grammar.Spells.places {level : Level} {e : Expr} (h : Spells source level ts e) :
    ∀ c ∈ e.places, c.In source := by
  induction h with
  | equality _ ih | operand _ ih | primary _ ih => exact ih
  | literal | reference => exact List.forall_mem_singleton.2 ⟨rfl, rfl⟩
  | assign _ _ _ ih | unary _ _ ih | group _ _ _ ih => exact List.forall_mem_cons.2 ⟨⟨rfl, rfl⟩, ih⟩
  | binary _ _ _ ihl ihr => exact List.forall_mem_cons.2 ⟨⟨rfl, rfl⟩, List.forall_mem_append.2 ⟨ihl, ihr⟩⟩

mutual

theorem Grammar.SpellsStmt.places {ts : List Token} {stmt : Stmt} (h : SpellsStmt source ts stmt) :
    ∀ c ∈ stmt.places, c.In source := by
  match h with
  | .declare _ _ _ hs _ => exact List.forall_mem_cons.2 ⟨⟨rfl, rfl⟩, hs.places⟩
  | .declareMutable _ _ _ _ hs _ => exact List.forall_mem_cons.2 ⟨⟨rfl, rfl⟩, hs.places⟩
  | .println _ hs _ => exact List.forall_mem_cons.2 ⟨⟨rfl, rfl⟩, hs.places⟩
  | .block _ hbody _ => exact List.forall_mem_cons.2 ⟨⟨rfl, rfl⟩, SpellsProgram.places hbody⟩
  | .expr hs _ => exact List.forall_mem_cons.2 ⟨⟨rfl, rfl⟩, hs.places⟩

theorem Grammar.SpellsProgram.places {ts : List Token} {program : List Stmt}
    (h : SpellsProgram source ts program) : ∀ c ∈ Stmt.placesAll program, c.In source := by
  match h with
  | .nil => exact List.forall_mem_nil _
  | .cons hfirst hothers =>
      exact List.forall_mem_append.2 ⟨SpellsStmt.places hfirst, SpellsProgram.places hothers⟩

end

/-- An outcome whose diagnostic, if it has one, refers to another place. -/
def relocated (ρ : Relocation) (result : Except Diagnostic Value) : Except Diagnostic Value :=
  result.mapError (·.relocate ρ)

@[simp] theorem relocated_ok (ρ : Relocation) (v : Value) : relocated ρ (.ok v) = .ok v := rfl

@[simp] theorem relocated_error (ρ : Relocation) (d : Diagnostic) :
    relocated ρ (.error d) = .error (d.relocate ρ) := rfl

/-- A diagnostic with a place in the source shows the new place of the tree. -/
theorem EndAlike.relocated {ρ : Relocation} {places : List Context} {x x' : Except Diagnostic Value × State}
    (h : EndAlike ρ.labels.Shows x x') (hx : Raises (Diagnostic.OfRun places) x.1)
    (hplaces : ∀ c ∈ places, c.In source) : x' = (relocated ρ x.1, x.2) := by
  cases h with
  | ok v s => rfl
  | error hshows fault s =>
      cases hshows with
      | there c => rfl
      | nowhere =>
          have hroot : Context.nowhere.part = Context.root := (hplaces _ (hx _ rfl).context).2
          exact absurd hroot (by decide)

/-- A statement of a source does the same wherever it stands. -/
theorem Grammar.SpellsStmt.exec_relocate {stmt : Stmt} (h : SpellsStmt source ts stmt) (ρ : Relocation)
    (st : State) : (stmt.relocate ρ).exec st = (relocated ρ (stmt.exec st).1, (stmt.exec st).2) :=
  (stmt.exec_relabel ρ.labels st).relocated (stmt.exec_raises st) (SpellsStmt.places h)

theorem Grammar.SpellsProgram.execFrom_relocate {program : List Stmt} (h : SpellsProgram source ts program)
    (ρ : Relocation) (v : Value) (st : State) :
    Stmt.execFrom v (Stmt.relocateAll ρ program) st =
      (relocated ρ (Stmt.execFrom v program st).1, (Stmt.execFrom v program st).2) :=
  (Stmt.execFrom_relabel ρ.labels v program st).relocated (Stmt.execFrom_raises v program st)
    (SpellsProgram.places h)

end

/-! ## Statements and their output -/

/-- In the scope, the statement has the result, leaves the other scope and prints the texts, whatever has
been printed before. -/
def Stmt.Prints (stmt : Stmt) (scope : Scope) (result : Except Diagnostic Value) (after : Scope)
    (printed : List Text) : Prop :=
  ∀ sink : Sink, sink.Accepts → stmt.exec ⟨scope, sink⟩ = (result, ⟨after, sink.appended printed⟩)

theorem Stmt.println_prints (c : Context) (e : Expr) (scope : Scope) :
    ∃ result after printed, (Stmt.println c e).Prints scope result after printed := by
  cases heval : e.eval scope with
  | mk result s =>
      cases result with
      | error d =>
          refine ⟨.error d, s, [], fun sink _ => ?_⟩
          rw [Sink.appended_nil]
          simp only [Stmt.exec, heval, State.withScope]
      | ok v =>
          refine ⟨.ok .nil, s, [v.display.line], fun sink hsink => ?_⟩
          simp only [Stmt.exec, heval, hsink.offer]

/-- What prints nothing does the same for every output. -/
theorem Stmt.declare_prints (c : Context) (name : Token) (isMutable : Bool) (e : Expr) (scope : Scope) :
    ∃ result after printed, (Stmt.declare c name isMutable e).Prints scope result after printed := by
  refine ⟨((Stmt.declare c name isMutable e).exec ⟨scope, .unlimited⟩).1,
    ((Stmt.declare c name isMutable e).exec ⟨scope, .unlimited⟩).2.scope, [], fun sink _ => ?_⟩
  rw [Sink.appended_nil]
  simp only [Stmt.exec]
  split
  · rfl
  · cases e.eval scope with
    | mk result s => cases result <;> rfl

mutual

theorem Stmt.exec_prints (stmt : Stmt) (scope : Scope) :
    ∃ result after printed, stmt.Prints scope result after printed := by
  match stmt with
  | .expr _ e =>
      refine ⟨(e.eval scope).1, (e.eval scope).2, [], fun sink _ => ?_⟩
      rw [Sink.appended_nil]
      rfl
  | .println c e => exact Stmt.println_prints c e scope
  | .declare c name isMutable e => exact Stmt.declare_prints c name isMutable e scope
  | .block _ body =>
      obtain ⟨result, after, printed, hbody⟩ := Stmt.execFrom_prints .nil body scope.enter
      cases result with
      | error d =>
          refine ⟨.error d, after.leave, printed, fun sink hsink => ?_⟩
          simp only [Stmt.exec, State.withScope, hbody sink hsink]
      | ok v =>
          refine ⟨.ok .nil, after.leave, printed, fun sink hsink => ?_⟩
          simp only [Stmt.exec, State.withScope, hbody sink hsink]
  | .absent => exact ⟨_, scope, [], fun sink _ => by rw [Sink.appended_nil]; rfl⟩
  | .foreign _ _ => exact ⟨_, scope, [], fun sink _ => by rw [Sink.appended_nil]; rfl⟩

theorem Stmt.execFrom_prints (v : Value) (program : List Stmt) (scope : Scope) :
    ∃ result after printed, ∀ sink : Sink, sink.Accepts →
      Stmt.execFrom v program ⟨scope, sink⟩ = (result, ⟨after, sink.appended printed⟩) := by
  match program with
  | [] => exact ⟨.ok v, scope, [], fun sink _ => by rw [Sink.appended_nil]; rfl⟩
  | stmt :: rest =>
      obtain ⟨result, middle, printed, hstmt⟩ := Stmt.exec_prints stmt scope
      cases result with
      | error d =>
          exact ⟨.error d, middle, printed, fun sink hsink => by rw [Stmt.execFrom, hstmt sink hsink]⟩
      | ok v' =>
          obtain ⟨result, after, printed', hrest⟩ := Stmt.execFrom_prints v' rest middle
          refine ⟨result, after, printed ++ printed', fun sink hsink => ?_⟩
          rw [Stmt.execFrom, hstmt sink hsink]
          dsimp only
          rw [hrest _ (hsink.appended printed), Sink.appended_appended]

end

/-- In the scope, the statement has the result, leaves the other scope and prints the texts, wherever it
stands and whatever has been printed before. -/
def Stmt.Does (stmt : Stmt) (scope : Scope) (result : Except Diagnostic Value) (after : Scope)
    (printed : List Text) : Prop :=
  ∀ (ρ : Relocation) (sink : Sink), sink.Accepts →
    (stmt.relocate ρ).exec ⟨scope, sink⟩ = (relocated ρ result, ⟨after, sink.appended printed⟩)

theorem Grammar.SpellsStmt.does {source : Text} {ts : List Token} {stmt : Stmt}
    (h : SpellsStmt source ts stmt) (scope : Scope) :
    ∃ result after printed, stmt.Does scope result after printed := by
  obtain ⟨result, after, printed, hprints⟩ := stmt.exec_prints scope
  refine ⟨result, after, printed, fun ρ sink hsink => ?_⟩
  rw [h.exec_relocate ρ, hprints sink hsink]

end LetScript
