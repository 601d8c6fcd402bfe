import LetScript.Execution.Basic
import LetScript.Proofs.Scope.Keeping
import LetScript.Proofs.Syntax.Sentences

/-!
# The values of a program

The values that a program binds to names on its way, in blocks too and also before it fails. A scope holds
nothing but what it held before and what has been bound since. The values of a program that has been read
from a source are all plain: they hold what their type says, and no string has a quotation mark in it.
-/

namespace LetScript

open Grammar

/-! ## Values that are bound -/

/-- The values that evaluation binds to names, in order. -/
def Expr.stores : Expr → Scope → List Value
  | .literal _ _, _ => []
  | .group _ inner, s => inner.stores s
  | .unary _ _ operand, s => operand.stores s
  | .binary _ _ left right, s => left.stores s ++ right.stores (left.eval s).2
  | .reference _ _, _ => []
  | .assign _ name value, s =>
    match s.get? name.lexeme with
    | none => []
    | some b =>
      if b.isMutable then value.stores s ++ (value.eval s).1.toOption.toList else []
  | .absent, _ => []
  | .foreign _ _, _ => []

mutual

/-- The values that a statement binds to names, in order. -/
def Stmt.stores : Stmt → State → List Value
  | .expr _ value, st => value.stores st.scope
  | .println _ value, st => value.stores st.scope
  | .declare _ name _ init, st =>
    if st.scope.frame.contains name.lexeme then []
    else init.stores st.scope ++ (init.eval st.scope).1.toOption.toList
  | .block _ body, st => Stmt.storesAll body (st.withScope st.scope.enter)
  | .absent, _ => []
  | .foreign _ _, _ => []

/-- The values that statements bind to names, up to the first failure. -/
def Stmt.storesAll : List Stmt → State → List Value
  | [], _ => []
  | stmt :: rest, st =>
    stmt.stores st ++
      match stmt.exec st with
      | (.error _, _) => []
      | (.ok _, st') => Stmt.storesAll rest st'

end

/-! ## Scopes that hold values -/

/-- All values in the frame have the property. -/
def Frame.Holds (P : Value → Prop) (f : Frame) : Prop := ∀ name b, f.get? name = some b → P b.value

/-- All values in the scope have the property. -/
def Scope.Holds (P : Value → Prop) : Scope → Prop
  | .root f => f.Holds P
  | .nested f outer => f.Holds P ∧ outer.Holds P

section

variable {P : Value → Prop} {f : Frame} {s : Scope} {v : Value}

theorem Frame.Holds.define (h : f.Holds P) (name : Text) {b : Binding} (hb : P b.value) :
    (f.define name b).Holds P := by
  intro other b' hb'
  rw [Frame.get?_define] at hb'
  split at hb'
  · cases hb'
    exact hb
  · exact h other b' hb'

theorem Frame.Holds.setValue (h : f.Holds P) (name : Text) (hv : P v) : (f.setValue name v).Holds P := by
  intro other b' hb'
  rw [Frame.get?_setValue, Option.map_eq_some_iff] at hb'
  obtain ⟨b, hb, rfl⟩ := hb'
  split
  · exact hv
  · exact h other b hb

theorem Scope.Holds.get? (h : s.Holds P) {name : Text} {b : Binding} (hb : s.get? name = some b) :
    P b.value := by
  induction s with
  | root f => exact h name b hb
  | nested f outer ih =>
      simp only [Scope.get?] at hb
      split at hb
      · rename_i b' hb'
        cases hb
        exact h.1 name b hb'
      · exact ih h.2 hb

theorem Scope.Holds.globals (h : s.Holds P) : s.globals.Holds P := by
  induction s with
  | root f => exact h
  | nested f outer ih => exact ih h.2

theorem Scope.Holds.assign (h : s.Holds P) (name : Text) (hv : P v) : (s.assign name v).Holds P := by
  induction s with
  | root f => exact h.setValue name hv
  | nested f outer ih =>
      rw [Scope.assign]
      split
      · exact ⟨h.1.setValue name hv, h.2⟩
      · exact ⟨h.1, ih h.2⟩

theorem Scope.Holds.define (h : s.Holds P) (name : Text) {b : Binding} (hb : P b.value) :
    (s.define name b).Holds P := by
  cases s with
  | root f => exact Frame.Holds.define h name hb
  | nested f outer => exact ⟨h.1.define name hb, h.2⟩

theorem Scope.Holds.enter (h : s.Holds P) : s.enter.Holds P := by
  refine ⟨fun name b hb => ?_, h⟩
  cases hb

theorem Scope.Holds.leave (h : s.Holds P) : s.leave.Holds P := by
  cases s with
  | root f => exact h
  | nested f outer => exact h.2

end

/-! ## Nothing comes from elsewhere -/

section

variable {P : Value → Prop}

/-- After an evaluation a scope holds what it held before and what has been bound since. -/
theorem Expr.eval_holds {e : Expr} {s : Scope} (hs : s.Holds P) (hstores : ∀ v ∈ e.stores s, P v) :
    (e.eval s).2.Holds P := by
  induction e generalizing s with
  | literal | absent | foreign => exact hs
  | group _ inner ih => exact ih hs hstores
  | unary c op operand ih =>
      have hoperand := ih hs hstores
      simp only [Expr.eval]
      split <;> (rename_i heq; rwa [heq] at hoperand)
  | binary c op left right ihl ihr =>
      obtain ⟨hl, hr⟩ := List.forall_mem_append.1 hstores
      exact ihr (ihl hs hl) hr
  | reference c name =>
      simp only [Expr.eval]
      split <;> exact hs
  | assign c name value ih =>
      simp only [Expr.stores] at hstores
      simp only [Expr.eval]
      split
      · exact hs
      · rename_i b hb
        rw [hb] at hstores
        dsimp only at hstores
        split
        · rename_i hmut
          rw [if_pos hmut] at hstores
          obtain ⟨hvalue, hlast⟩ := List.forall_mem_append.1 hstores
          have hafter := ih hs hvalue
          split
          · rename_i heq
            rwa [heq] at hafter
          · rename_i v s' heq
            rw [heq] at hafter hlast
            exact hafter.assign name.lexeme (hlast v (by simp [Except.toOption]))
        · exact hs

mutual

theorem Stmt.exec_holds {stmt : Stmt} {st : State} (hs : st.scope.Holds P)
    (hstores : ∀ v ∈ stmt.stores st, P v) : (stmt.exec st).2.scope.Holds P := by
  match stmt with
  | .expr _ e =>
      simp only [Stmt.stores] at hstores
      exact Expr.eval_holds hs hstores
  | .println _ e =>
      simp only [Stmt.stores] at hstores
      have hafter := Expr.eval_holds hs hstores
      simp only [Stmt.exec]
      split
      · rename_i heq
        rwa [heq] at hafter
      · rename_i heq
        rw [heq] at hafter
        split <;> exact hafter
  | .declare _ name _ e =>
      simp only [Stmt.stores] at hstores
      simp only [Stmt.exec]
      split
      · exact hs
      · rename_i hc
        rw [if_neg hc] at hstores
        obtain ⟨hinit, hlast⟩ := List.forall_mem_append.1 hstores
        have hafter := Expr.eval_holds hs hinit
        split
        · rename_i heq
          rwa [heq] at hafter
        · rename_i v s heq
          rw [heq] at hafter hlast
          exact hafter.define name.lexeme (hlast v (by simp [Except.toOption]))
  | .block _ body =>
      simp only [Stmt.stores] at hstores
      have hbody : (Stmt.execFrom .nil body (st.withScope st.scope.enter)).2.scope.Holds P :=
        Stmt.execFrom_holds hs.enter hstores
      simp only [Stmt.exec]
      split <;> (rename_i heq; rw [heq] at hbody; exact hbody.leave)
  | .absent => exact hs
  | .foreign _ _ => exact hs

theorem Stmt.execFrom_holds {v : Value} {program : List Stmt} {st : State} (hs : st.scope.Holds P)
    (hstores : ∀ v ∈ Stmt.storesAll program st, P v) : (Stmt.execFrom v program st).2.scope.Holds P := by
  match program with
  | [] => exact hs
  | stmt :: rest =>
      simp only [Stmt.storesAll] at hstores
      obtain ⟨hfirst, hothers⟩ := List.forall_mem_append.1 hstores
      have hmiddle := Stmt.exec_holds hs hfirst
      rw [Stmt.execFrom]
      split
      · rename_i heq
        rwa [heq] at hmiddle
      · rename_i heq
        rw [heq] at hmiddle hothers
        exact Stmt.execFrom_holds hmiddle hothers

end

end

/-! ## Plain values -/

/-- A value that holds what its type says and, if it is a string, no quotation mark. -/
inductive Value.Plain : Value → Prop
  | nil : Plain .nil
  | bool (b : Bool) : Plain (.ofBool b)
  | number (x : Float) : Plain (.ofNumber x)
  | text {s : Text} : Lexical.quote ∉ s → Plain (.ofText s)

namespace Value

theorem Plain.quote_not_mem {v : Value} (h : v.Plain) : Lexical.quote ∉ v.text := by
  cases h with
  | text hs => exact hs
  | _ => exact List.not_mem_nil

theorem arithmetic?_plain {op : Token.Kind} {a b : Float} {v : Value}
    (h : arithmetic? op a b = some (.ok v)) : v.Plain := by
  unfold arithmetic? at h
  split at h
  case h_4 =>
      split at h
      · cases h
      · cases h
        exact .number _
  case h_9 => cases h
  all_goals cases h; constructor

theorem compute_plain {op : Token.Kind} {v w u : Value} (hv : v.Plain) (hw : w.Plain)
    (h : compute op v w = .ok u) : u.Plain := by
  unfold compute at h
  split at h
  · split at h
    · rename_i heq
      rw [h] at heq
      exact arithmetic?_plain heq
    · cases h
  · split at h
    · cases h
      refine .text fun hmem => ?_
      exact (List.mem_append.1 hmem).elim hv.quote_not_mem hw.quote_not_mem
    · cases h

theorem infixOp_plain {op : Token.Kind} {v w u : Value} (hv : v.Plain) (hw : w.Plain)
    (h : infixOp op v w = .ok u) : u.Plain := by
  unfold infixOp at h
  split at h
  · cases h
    exact .bool _
  · cases h
    exact .bool _
  · exact compute_plain hv hw h

theorem signOp_plain {op : Token.Kind} {v u : Value} (h : signOp op v = .ok u) : u.Plain := by
  unfold signOp at h
  split at h
  · cases h
    exact .number _
  · split at h <;> cases h

end Value

/-- An outcome that is plain if it is a value, and plain values that have been bound before it. -/
structure YieldsPlain (result : Except Diagnostic Value) (stored : List Value) : Prop where
  outcome : ∀ v, result = .ok v → v.Plain
  stored : ∀ v ∈ stored, v.Plain

theorem YieldsPlain.ok {v : Value} (hv : v.Plain) : YieldsPlain (.ok v) [] := by
  refine ⟨fun w hw => ?_, by simp⟩
  cases hw
  exact hv

theorem YieldsPlain.error (d : Diagnostic) : YieldsPlain (.error d) [] := ⟨by simp, by simp⟩

/-- The value that comes out is bound, too. -/
theorem YieldsPlain.stored_outcome {result : Except Diagnostic Value} {stored : List Value}
    (h : YieldsPlain result stored) : ∀ v ∈ stored ++ result.toOption.toList, v.Plain := by
  refine List.forall_mem_append.2 ⟨h.stored, fun v hv => h.outcome v ?_⟩
  cases result with
  | error d => simp [Except.toOption] at hv
  | ok w => simpa [Except.toOption, eq_comm] using hv

theorem Context.place_eq_ok {c : Context} {result : Except Fault Value} {v : Value}
    (h : c.place result = .ok v) : result = .ok v := by
  cases result with
  | error fault => cases h
  | ok w =>
      cases h
      rfl

theorem Expr.combine_plain {c : Context} {op : Token} {left right : Except Diagnostic Value} {u : Value}
    (hl : ∀ v, left = .ok v → v.Plain) (hr : ∀ v, right = .ok v → v.Plain)
    (h : Expr.combine c op left right = .ok u) : u.Plain := by
  cases left with
  | error d => cases h
  | ok v =>
      cases right with
      | error d => cases h
      | ok w => exact Value.infixOp_plain (hl v rfl) (hr w rfl) (Context.place_eq_ok h)

/-- From plain literals and a scope of plain values only plain values come. -/
theorem Grammar.Spells.yieldsPlain {source : Text} {level : Level} {ts : List Token} {e : Expr}
    (h : Spells source level ts e) (hts : ∀ t ∈ ts, t.value.Plain) {s : Scope} (hs : s.Holds Value.Plain) :
    YieldsPlain (e.eval s).1 (e.stores s) := by
  induction h generalizing s with
  | equality _ ih => exact ih hts hs
  | operand _ ih => exact ih hts hs
  | primary _ ih => exact ih hts hs
  | @literal t _ => exact .ok (hts t List.mem_cons_self)
  | group _ _ _ ih =>
      obtain ⟨hinner, -⟩ := List.forall_mem_append.1 hts
      exact ih (List.forall_mem_cons.1 hinner).2 hs
  | @reference t _ =>
      simp only [Expr.eval, Expr.stores]
      split
      · exact .error _
      · rename_i b hb
        exact .ok (hs.get? hb)
  | @unary op ts operand _ _ ih =>
      obtain ⟨-, htail⟩ := List.forall_mem_cons.1 hts
      refine ⟨fun v hv => ?_, (ih htail hs).stored⟩
      simp only [Expr.eval] at hv
      split at hv
      · cases hv
      · exact Value.signOp_plain (Context.place_eq_ok hv)
  | @binary l op ts ts' left right hleft _ _ ihl ihr =>
      obtain ⟨htl, htr⟩ := List.forall_mem_append.1 hts
      have hl := ihl htl hs
      have hr := ihr (List.forall_mem_cons.1 htr).2 (Expr.eval_holds hs hl.stored)
      refine ⟨fun v => Expr.combine_plain hl.outcome hr.outcome, ?_⟩
      exact List.forall_mem_append.2 ⟨hl.stored, hr.stored⟩
  | @assign name sign ts value _ _ _ ih =>
      have hvalue := ih (fun t ht => hts t (by simp [ht])) hs
      simp only [Expr.eval, Expr.stores]
      cases hb : s.get? name.lexeme with
      | none => exact .error _
      | some b =>
          dsimp only
          by_cases hmut : b.isMutable
          · rw [if_pos hmut, if_pos hmut]
            refine ⟨fun v hv => ?_, hvalue.stored_outcome⟩
            split at hv
            · cases hv
            · cases hv
              exact hs.get? hb
          · rw [if_neg hmut, if_neg hmut]
            exact .error _

theorem Stmt.println_yieldsPlain {c : Context} {e : Expr} {st : State}
    (h : YieldsPlain (e.eval st.scope).1 (e.stores st.scope)) :
    YieldsPlain ((Stmt.println c e).exec st).1 ((Stmt.println c e).stores st) := by
  simp only [Stmt.exec, Stmt.stores]
  refine ⟨fun v hv => ?_, h.stored⟩
  split at hv
  · cases hv
  · split at hv
    · cases hv
      exact .nil
    · cases hv

theorem Stmt.declare_yieldsPlain {c : Context} {name : Token} {isMutable : Bool} {e : Expr} {st : State}
    (h : YieldsPlain (e.eval st.scope).1 (e.stores st.scope)) :
    YieldsPlain ((Stmt.declare c name isMutable e).exec st).1
      ((Stmt.declare c name isMutable e).stores st) := by
  simp only [Stmt.exec, Stmt.stores]
  by_cases hc : st.scope.frame.contains name.lexeme
  · rw [if_pos hc, if_pos hc]
    exact .error _
  · rw [if_neg hc, if_neg hc]
    refine ⟨fun v hv => ?_, h.stored_outcome⟩
    split at hv
    · cases hv
    · cases hv
      exact .nil

mutual

theorem Grammar.SpellsStmt.yieldsPlain {source : Text} {ts : List Token} {stmt : Stmt}
    (h : SpellsStmt source ts stmt) (hts : ∀ t ∈ ts, t.value.Plain) {st : State}
    (hs : st.scope.Holds Value.Plain) : YieldsPlain (stmt.exec st).1 (stmt.stores st) := by
  match h with
  | .declare _ _ _ hinit _ =>
      exact Stmt.declare_yieldsPlain (hinit.yieldsPlain (fun t ht => hts t (by simp [ht])) hs)
  | .declareMutable _ _ _ _ hinit _ =>
      exact Stmt.declare_yieldsPlain (hinit.yieldsPlain (fun t ht => hts t (by simp [ht])) hs)
  | .println _ hvalue _ =>
      exact Stmt.println_yieldsPlain (hvalue.yieldsPlain (fun t ht => hts t (by simp [ht])) hs)
  | @SpellsStmt.block _ _ _ _ body _ hbody _ =>
      have hyields : YieldsPlain (Stmt.execFrom .nil body (st.withScope st.scope.enter)).1
          (Stmt.storesAll body (st.withScope st.scope.enter)) :=
        SpellsProgram.yieldsPlain hbody (fun t ht => hts t (by simp [ht])) .nil hs.enter
      simp only [Stmt.exec, Stmt.stores]
      refine ⟨fun v hv => ?_, hyields.stored⟩
      split at hv
      · cases hv
      · cases hv
        exact .nil
  | .expr hvalue _ =>
      simp only [Stmt.exec, Stmt.stores]
      exact hvalue.yieldsPlain (List.forall_mem_append.1 hts).1 hs

theorem Grammar.SpellsProgram.yieldsPlain {source : Text} {ts : List Token} {program : List Stmt}
    (h : SpellsProgram source ts program) (hts : ∀ t ∈ ts, t.value.Plain) {v : Value} (hv : v.Plain)
    {st : State} (hs : st.scope.Holds Value.Plain) :
    YieldsPlain (Stmt.execFrom v program st).1 (Stmt.storesAll program st) := by
  match h with
  | .nil => exact .ok hv
  | @SpellsProgram.cons _ _ _ first _ hfirst hothers =>
      obtain ⟨htfirst, htothers⟩ := List.forall_mem_append.1 hts
      have hyields := SpellsStmt.yieldsPlain hfirst htfirst hs
      have hmiddle := Stmt.exec_holds hs hyields.stored
      simp only [Stmt.execFrom, Stmt.storesAll]
      cases hexec : first.exec st with
      | mk result st' =>
          rw [hexec] at hyields hmiddle
          cases result with
          | error d => exact ⟨by simp, by simpa using hyields.stored⟩
          | ok w =>
              have hrest := SpellsProgram.yieldsPlain hothers htothers (hyields.outcome w rfl) hmiddle
              exact ⟨hrest.outcome, List.forall_mem_append.2 ⟨hyields.stored, hrest.stored⟩⟩

end

/-! ## Sources -/

theorem Token.value_plain {t : Token} (h : Lexical.quote ∉ t.text) : t.value.Plain := by
  unfold Token.value
  split
  · exact .text h
  · exact .number _
  · exact .bool true
  · exact .bool false
  · exact .nil

theorem Lexical.InClass.quote_not_mem {cls : Lexical.Class} {t : Token}
    (h : Lexical.InClass cls t.lexeme t.kind t.literal) : Lexical.quote ∉ t.text := by
  obtain ⟨kind, lexeme, literal, line⟩ := t
  cases h with
  | string hbody => exact hbody
  | _ => exact List.not_mem_nil

/-- Whatever the mode, a source is read as statements whose literals are plain. -/
theorem spells_plain_of_parse {source text : Text} {mode : Mode} {program : List Stmt}
    (h : parse source mode text = .ok program) :
    ∃ us, (∀ t ∈ us, t.value.Plain) ∧ SpellsProgram (sourceOrDefault source) us program := by
  obtain ⟨us, hus, hspells⟩ := spells_of_parse h
  refine ⟨us, fun t ht => ?_, hspells⟩
  rcases hus t ht with hstop | ⟨cls, hclass⟩
  · rw [Token.value, hstop]
    exact .nil
  · exact Token.value_plain hclass.quote_not_mem

end LetScript
