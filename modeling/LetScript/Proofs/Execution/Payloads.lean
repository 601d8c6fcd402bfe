import LetScript.Proofs.Execution.Faults
import LetScript.Proofs.Execution.Replay
import LetScript.Proofs.Scope.Keeping

/-!
# Types do not depend on payloads

Two values are alike if they have the same type, two scopes if they have the same frames with the same
names, as mutable as each other and with values that are alike. If nothing is divided, programs that differ
in the payloads of their literals run alike in scopes that are alike: they fail for a fault of the same class
at the same place or have values of the same type, and they print as often.
-/

namespace LetScript

/-! ## Outcomes -/

/-- Faults of one class. -/
def Fault.Alike (fault fault' : Fault) : Prop := fault.cls = fault'.cls

/-- Diagnostics of faults of one class at one place. -/
def Diagnostic.Alike (d d' : Diagnostic) : Prop := d.context = d'.context ∧ d.fault.Alike d'.fault

/-- Two values of one type, or two failures that are alike. -/
inductive OutcomesAlike {ε : Type} (alike : ε → ε → Prop) : Except ε Value → Except ε Value → Prop
  | ok {v v' : Value} : v.type = v'.type → OutcomesAlike alike (.ok v) (.ok v')
  | error {failure failure' : ε} :
      alike failure failure' → OutcomesAlike alike (.error failure) (.error failure')

section

variable {ε : Type} {alike : ε → ε → Prop}

theorem OutcomesAlike.numbers (a b : Float) : OutcomesAlike alike (.ok (.ofNumber a)) (.ok (.ofNumber b)) :=
  .ok rfl

theorem OutcomesAlike.truths (a b : Bool) : OutcomesAlike alike (.ok (.ofBool a)) (.ok (.ofBool b)) := .ok rfl

theorem OutcomesAlike.texts (a b : Text) : OutcomesAlike alike (.ok (.ofText a)) (.ok (.ofText b)) := .ok rfl

end

theorem OutcomesAlike.fault (c : Context) {fault fault' : Fault} (h : fault.Alike fault') :
    OutcomesAlike Diagnostic.Alike (.error ⟨c, fault⟩) (.error ⟨c, fault'⟩) := .error ⟨rfl, h⟩

theorem OutcomesAlike.place (c : Context) {result result' : Except Fault Value}
    (h : OutcomesAlike Fault.Alike result result') :
    OutcomesAlike Diagnostic.Alike (c.place result) (c.place result') := by
  cases h with
  | ok htype => exact .ok htype
  | error hfault => exact .fault c hfault

/-! ## Operators -/

namespace Value

variable {op : Token.Kind} {v v' w w' : Value}

theorem infixFault_alike (op : Token.Kind) (v v' w w' : Value) :
    (infixFault op v w).Alike (infixFault op v' w') := by
  rw [Fault.Alike, infixFault_cls, infixFault_cls]

/-- Division alone asks for more than that its operands are numbers. -/
theorem arithmetic?_alike (hop : op ≠ .slash) (a a' b b' : Float) :
    Option.Rel (OutcomesAlike Fault.Alike) (arithmetic? op a b) (arithmetic? op a' b') := by
  cases op with
  | slash => exact absurd rfl hop
  | plus | minus | star => exact .some (.numbers _ _)
  | greater | greaterEqual | less | lessEqual => exact .some (.truths _ _)
  | _ => exact .none

theorem compute_alike (hop : op ≠ .slash) (hv : v.type = v'.type) (hw : w.type = w'.type) :
    OutcomesAlike Fault.Alike (compute op v w) (compute op v' w') := by
  have hfault : OutcomesAlike Fault.Alike (.error (infixFault op v w)) (.error (infixFault op v' w')) :=
    .error (infixFault_alike op v v' w w')
  unfold compute
  rw [← hv, ← hw]
  by_cases hnumbers : v.type = .number ∧ w.type = .number
  · rw [if_pos hnumbers, if_pos hnumbers]
    have harith := arithmetic?_alike hop v.number v'.number w.number w'.number
    generalize arithmetic? op v.number w.number = o, arithmetic? op v'.number w'.number = o' at harith ⊢
    cases harith with
    | none => exact hfault
    | some hresult => exact hresult
  · rw [if_neg hnumbers, if_neg hnumbers]
    by_cases htexts : op = .plus ∧ v.type = .string ∧ w.type = .string
    · rw [if_pos htexts, if_pos htexts]
      exact .texts _ _
    · rw [if_neg htexts, if_neg htexts]
      exact hfault

theorem infixOp_alike (hop : op ≠ .slash) (hv : v.type = v'.type) (hw : w.type = w'.type) :
    OutcomesAlike Fault.Alike (infixOp op v w) (infixOp op v' w') := by
  cases op with
  | equalEqual | bangEqual => exact .truths _ _
  | _ => exact compute_alike hop hv hw

theorem signOp_alike (op : Token.Kind) (hv : v.type = v'.type) :
    OutcomesAlike Fault.Alike (signOp op v) (signOp op v') := by
  unfold signOp
  rw [← hv]
  by_cases hnumber : op = .minus ∧ v.type = .number
  · rw [if_pos hnumber, if_pos hnumber]
    exact .numbers _ _
  · rw [if_neg hnumber, if_neg hnumber]
    by_cases hsign : op.isSignOperator
    · rw [if_pos hsign, if_pos hsign]
      exact .error rfl
    · rw [if_neg hsign, if_neg hsign]
      exact .error rfl

end Value

/-! ## Scopes -/

/-- Bindings that are as mutable as each other, of values of one type. -/
structure Binding.Alike (b b' : Binding) : Prop where
  isMutable : b.isMutable = b'.isMutable
  type : b.value.type = b'.value.type

namespace Frame

/-- The same names, with bindings that are alike. -/
def Alike (f f' : Frame) : Prop := ∀ name, Option.Rel Binding.Alike (f.get? name) (f'.get? name)

variable {f f' : Frame}

theorem Alike.contains (h : f.Alike f') (name : Text) : f.contains name = f'.contains name := by
  have hname := h name
  unfold Frame.contains
  generalize f.get? name = o, f'.get? name = o' at hname ⊢
  cases hname with
  | none => rfl
  | some _ => rfl

theorem Alike.define (h : f.Alike f') (name : Text) {b b' : Binding} (hb : b.Alike b') :
    (f.define name b).Alike (f'.define name b') := by
  intro other
  rw [get?_define, get?_define]
  by_cases ho : other = name
  · rw [if_pos ho, if_pos ho]
    exact .some hb
  · rw [if_neg ho, if_neg ho]
    exact h other

theorem Alike.setValue (h : f.Alike f') (name : Text) {v v' : Value} (hv : v.type = v'.type) :
    (f.setValue name v).Alike (f'.setValue name v') := by
  intro other
  have hother := h other
  rw [get?_setValue, get?_setValue]
  generalize f.get? other = o, f'.get? other = o' at hother ⊢
  cases hother with
  | none => exact .none
  | some hb =>
      refine .some ?_
      dsimp only
      by_cases ho : other = name
      · rw [if_pos ho, if_pos ho]
        exact ⟨hb.isMutable, hv⟩
      · rw [if_neg ho, if_neg ho]
        exact hb

end Frame

namespace Scope

/-- The same frames in the same order, each like the other. -/
inductive Alike : Scope → Scope → Prop
  | root {f f' : Frame} : f.Alike f' → Alike (root f) (root f')
  | nested {f f' : Frame} {outer outer' : Scope} :
      f.Alike f' → Alike outer outer' → Alike (nested f outer) (nested f' outer')

variable {s s' : Scope}

theorem Alike.frame (h : s.Alike s') : s.frame.Alike s'.frame := by
  cases h with
  | root hf => exact hf
  | nested hf _ => exact hf

theorem Alike.get? (h : s.Alike s') (name : Text) :
    Option.Rel Binding.Alike (s.get? name) (s'.get? name) := by
  induction h with
  | root hf => exact hf name
  | @nested f f' outer outer' hf _ ih =>
      have hname := hf name
      simp only [Scope.get?]
      generalize f.get? name = o, f'.get? name = o' at hname ⊢
      cases hname with
      | none => exact ih
      | some hb => exact .some hb

theorem Alike.assign (h : s.Alike s') (name : Text) {v v' : Value} (hv : v.type = v'.type) :
    (s.assign name v).Alike (s'.assign name v') := by
  induction h with
  | root hf => exact .root (hf.setValue name hv)
  | @nested f f' outer outer' hf houter ih =>
      rw [Scope.assign, Scope.assign, hf.contains name]
      by_cases hc : f'.contains name
      · rw [if_pos hc, if_pos hc]
        exact .nested (hf.setValue name hv) houter
      · rw [if_neg hc, if_neg hc]
        exact .nested hf ih

theorem Alike.define (h : s.Alike s') (name : Text) {b b' : Binding} (hb : b.Alike b') :
    (s.define name b).Alike (s'.define name b') := by
  cases h with
  | root hf => exact .root (hf.define name hb)
  | nested hf houter => exact .nested (hf.define name hb) houter

theorem Alike.enter (h : s.Alike s') : s.enter.Alike s'.enter := .nested (fun _ => .none) h

theorem Alike.leave (h : s.Alike s') : s.leave.Alike s'.leave := by
  cases h with
  | root hf => exact .root hf
  | nested _ houter => exact houter

end Scope

/-! ## Expressions -/

namespace Expr

/-- Expressions that differ in their literals only, which are replaced by others of the same type. -/
inductive Alike : Expr → Expr → Prop
  | literal {c c' : Context} {t t' : Token} :
      t.value.type = t'.value.type → Alike (.literal c t) (.literal c' t')
  | group (c : Context) {e e' : Expr} : Alike e e' → Alike (.group c e) (.group c e')
  | unary (c : Context) (op : Token) {e e' : Expr} : Alike e e' → Alike (.unary c op e) (.unary c op e')
  | binary (c : Context) (op : Token) {l l' r r' : Expr} :
      Alike l l' → Alike r r' → Alike (.binary c op l r) (.binary c op l' r')
  | reference (c : Context) (name : Token) : Alike (.reference c name) (.reference c name)
  | assign (c : Context) (name : Token) {e e' : Expr} :
      Alike e e' → Alike (.assign c name e) (.assign c name e')
  | absent : Alike .absent .absent
  | foreign (c : Context) (typeName : Text) : Alike (.foreign c typeName) (.foreign c typeName)

/-- Whether there is a division in an expression. -/
def divides : Expr → Bool
  | .binary _ op left right => op.kind = .slash || left.divides || right.divides
  | .group _ inner => inner.divides
  | .unary _ _ operand => operand.divides
  | .assign _ _ value => value.divides
  | .literal _ _ | .reference _ _ | .absent | .foreign _ _ => false

theorem combine_alike (c : Context) {op : Token} (hop : op.kind ≠ .slash)
    {l l' r r' : Except Diagnostic Value} (hl : OutcomesAlike Diagnostic.Alike l l')
    (hr : OutcomesAlike Diagnostic.Alike r r') :
    OutcomesAlike Diagnostic.Alike (combine c op l r) (combine c op l' r') := by
  cases hl with
  | error hd => exact .error hd
  | ok hv =>
      cases hr with
      | error hd => exact .error hd
      | ok hw => exact .place c (Value.infixOp_alike hop hv hw)

/-- Without division, what an expression shows of itself depends on types only. -/
theorem Alike.eval {e e' : Expr} (h : e.Alike e') (hdiv : e.divides = false) {s s' : Scope}
    (hs : s.Alike s') :
    OutcomesAlike Diagnostic.Alike (e.eval s).1 (e'.eval s').1 ∧ (e.eval s).2.Alike (e'.eval s').2 := by
  induction h generalizing s s' with
  | literal htype => exact ⟨.ok htype, hs⟩
  | absent => exact ⟨.fault _ rfl, hs⟩
  | foreign c typeName => exact ⟨.fault c rfl, hs⟩
  | group c _ ih => exact ih hdiv hs
  | @unary c op e e' _ ih =>
      obtain ⟨hresult, hafter⟩ := ih hdiv hs
      simp only [Expr.eval]
      generalize e.eval s = x, e'.eval s' = x' at hresult hafter ⊢
      obtain ⟨result, after⟩ := x
      obtain ⟨result', after'⟩ := x'
      cases hresult with
      | error hd => exact ⟨.error hd, hafter⟩
      | ok hv => exact ⟨.place c (Value.signOp_alike op.kind hv), hafter⟩
  | @binary c op l l' r r' _ _ ihl ihr =>
      simp only [divides, Bool.or_eq_false_iff, decide_eq_false_iff_not] at hdiv
      obtain ⟨⟨hop, hdivl⟩, hdivr⟩ := hdiv
      obtain ⟨hleft, hmiddle⟩ := ihl hdivl hs
      obtain ⟨hright, hafter⟩ := ihr hdivr hmiddle
      exact ⟨combine_alike c hop hleft hright, hafter⟩
  | reference c name =>
      have hname := hs.get? name.lexeme
      simp only [Expr.eval]
      generalize s.get? name.lexeme = o, s'.get? name.lexeme = o' at hname ⊢
      cases hname with
      | none => exact ⟨.fault c rfl, hs⟩
      | some hb => exact ⟨.ok hb.type, hs⟩
  | @assign c name e e' _ ih =>
      obtain ⟨hresult, hafter⟩ := ih hdiv hs
      have hname := hs.get? name.lexeme
      simp only [Expr.eval]
      generalize s.get? name.lexeme = o, s'.get? name.lexeme = o' at hname ⊢
      cases hname with
      | none => exact ⟨.fault c rfl, hs⟩
      | @some b b' hb =>
          dsimp only
          rw [← hb.isMutable]
          by_cases hmut : b.isMutable
          · rw [if_pos hmut, if_pos hmut]
            generalize e.eval s = x, e'.eval s' = x' at hresult hafter ⊢
            obtain ⟨result, after⟩ := x
            obtain ⟨result', after'⟩ := x'
            cases hresult with
            | error hd => exact ⟨.error hd, hafter⟩
            | ok hv => exact ⟨.ok hb.type, hafter.assign name.lexeme hv⟩
          · rw [if_neg hmut, if_neg hmut]
            exact ⟨.fault c rfl, hs⟩

end Expr

/-! ## Statements -/

/-- After two states come two others, and as often has been printed on the way to either. -/
def State.PrintsAlike (st st' after after' : State) : Prop :=
  ∃ printed printed', after.sink = st.sink.appended printed ∧ after'.sink = st'.sink.appended printed' ∧
    printed.length = printed'.length

/-- Two runs from two states: their outcomes and the scopes after them are alike, and they print as often. -/
structure RunsAlike (st st' : State) (x x' : Except Diagnostic Value × State) : Prop where
  outcome : OutcomesAlike Diagnostic.Alike x.1 x'.1
  scope : x.2.scope.Alike x'.2.scope
  output : State.PrintsAlike st st' x.2 x'.2

section

variable {st st' after after' : State}

theorem State.PrintsAlike.accepts (h : State.PrintsAlike st st' after after') (hsink : st.sink.Accepts)
    (hsink' : st'.sink.Accepts) : after.sink.Accepts ∧ after'.sink.Accepts := by
  obtain ⟨printed, printed', hprinted, hprinted', -⟩ := h
  rw [hprinted, hprinted']
  exact ⟨hsink.appended printed, hsink'.appended printed'⟩

theorem State.PrintsAlike.trans {last last' : State} (h : State.PrintsAlike st st' after after')
    (h' : State.PrintsAlike after after' last last') : State.PrintsAlike st st' last last' := by
  obtain ⟨first, first', hfirst, hfirst', hlength⟩ := h
  obtain ⟨second, second', hsecond, hsecond', hlength'⟩ := h'
  refine ⟨first ++ second, first' ++ second', ?_, ?_, ?_⟩
  · rw [hsecond, hfirst, Sink.appended_appended]
  · rw [hsecond', hfirst', Sink.appended_appended]
  · rw [List.length_append, List.length_append, hlength, hlength']

theorem RunsAlike.silent {result result' : Except Diagnostic Value} {s s' : Scope}
    (houtcome : OutcomesAlike Diagnostic.Alike result result') (hscope : s.Alike s') :
    RunsAlike st st' (result, st.withScope s) (result', st'.withScope s') :=
  ⟨houtcome, hscope, [], [], (st.sink.appended_nil).symm, (st'.sink.appended_nil).symm, rfl⟩

end

mutual

/-- Statements that differ in literals only, which are replaced by others of the same type. -/
inductive Stmt.Alike : Stmt → Stmt → Prop
  | expr (c : Context) {e e' : Expr} : e.Alike e' → Stmt.Alike (.expr c e) (.expr c e')
  | println (c : Context) {e e' : Expr} : e.Alike e' → Stmt.Alike (.println c e) (.println c e')
  | declare (c : Context) (name : Token) (isMutable : Bool) {e e' : Expr} :
      e.Alike e' → Stmt.Alike (.declare c name isMutable e) (.declare c name isMutable e')
  | block (c : Context) {body body' : List Stmt} :
      Stmt.AllAlike body body' → Stmt.Alike (.block c body) (.block c body')
  | absent : Stmt.Alike .absent .absent
  | foreign (c : Context) (typeName : Text) : Stmt.Alike (.foreign c typeName) (.foreign c typeName)

/-- Lists of as many statements, each like the other. -/
inductive Stmt.AllAlike : List Stmt → List Stmt → Prop
  | nil : Stmt.AllAlike [] []
  | cons {stmt stmt' : Stmt} {rest rest' : List Stmt} :
      Stmt.Alike stmt stmt' → Stmt.AllAlike rest rest' → Stmt.AllAlike (stmt :: rest) (stmt' :: rest')

end

mutual

/-- Whether there is a division in a statement. -/
def Stmt.divides : Stmt → Bool
  | .expr _ value => value.divides
  | .println _ value => value.divides
  | .declare _ _ _ init => init.divides
  | .block _ body => Stmt.anyDivides body
  | .absent | .foreign _ _ => false

/-- Whether there is a division in one of the statements. -/
def Stmt.anyDivides : List Stmt → Bool
  | [] => false
  | stmt :: rest => stmt.divides || Stmt.anyDivides rest

end

namespace Expr.Alike

variable {e e' : Expr} {st st' : State}

theorem println (h : e.Alike e') (hdiv : e.divides = false) (c : Context) (hs : st.scope.Alike st'.scope)
    (hsink : st.sink.Accepts) (hsink' : st'.sink.Accepts) :
    RunsAlike st st' ((Stmt.println c e).exec st) ((Stmt.println c e').exec st') := by
  obtain ⟨hresult, hafter⟩ := h.eval hdiv hs
  simp only [Stmt.exec]
  generalize e.eval st.scope = x, e'.eval st'.scope = x' at hresult hafter ⊢
  obtain ⟨result, after⟩ := x
  obtain ⟨result', after'⟩ := x'
  cases hresult with
  | error hd => exact .silent (.error hd) hafter
  | ok hv =>
      simp only [hsink.offer, hsink'.offer]
      exact ⟨.ok rfl, hafter, _, _, rfl, rfl, rfl⟩

theorem declare (h : e.Alike e') (hdiv : e.divides = false) (c : Context) (name : Token) (isMutable : Bool)
    (hs : st.scope.Alike st'.scope) :
    RunsAlike st st' ((Stmt.declare c name isMutable e).exec st)
      ((Stmt.declare c name isMutable e').exec st') := by
  obtain ⟨hresult, hafter⟩ := h.eval hdiv hs
  simp only [Stmt.exec]
  rw [← hs.frame.contains name.lexeme]
  by_cases hc : st.scope.frame.contains name.lexeme
  · rw [if_pos hc, if_pos hc]
    exact .silent (.fault c rfl) hs
  · rw [if_neg hc, if_neg hc]
    generalize e.eval st.scope = x, e'.eval st'.scope = x' at hresult hafter ⊢
    obtain ⟨result, after⟩ := x
    obtain ⟨result', after'⟩ := x'
    cases hresult with
    | error hd => exact .silent (.error hd) hafter
    | ok hv => exact .silent (.ok rfl) (hafter.define name.lexeme ⟨rfl, hv⟩)

end Expr.Alike

mutual

theorem Stmt.Alike.exec {stmt stmt' : Stmt} (h : Stmt.Alike stmt stmt') (hdiv : stmt.divides = false)
    {st st' : State} (hs : st.scope.Alike st'.scope) (hsink : st.sink.Accepts) (hsink' : st'.sink.Accepts) :
    RunsAlike st st' (stmt.exec st) (stmt'.exec st') := by
  match h with
  | .expr c he =>
      obtain ⟨hresult, hafter⟩ := he.eval hdiv hs
      exact .silent hresult hafter
  | .println c he => exact he.println hdiv c hs hsink hsink'
  | .declare c name isMutable he => exact he.declare hdiv c name isMutable hs
  | @Stmt.Alike.block c body body' hbody =>
      have hruns : RunsAlike (st.withScope st.scope.enter) (st'.withScope st'.scope.enter)
          (Stmt.execFrom .nil body (st.withScope st.scope.enter))
          (Stmt.execFrom .nil body' (st'.withScope st'.scope.enter)) :=
        Stmt.AllAlike.execFrom hbody hdiv rfl hs.enter hsink hsink'
      simp only [Stmt.exec]
      generalize Stmt.execFrom .nil body (st.withScope st.scope.enter) = x,
        Stmt.execFrom .nil body' (st'.withScope st'.scope.enter) = x' at hruns ⊢
      obtain ⟨result, after⟩ := x
      obtain ⟨result', after'⟩ := x'
      obtain ⟨houtcome, hscope, houtput⟩ := hruns
      cases houtcome with
      | error hd => exact ⟨.error hd, hscope.leave, houtput⟩
      | ok _ => exact ⟨.ok rfl, hscope.leave, houtput⟩
  | .absent => exact .silent (.fault _ rfl) hs
  | .foreign c _ => exact .silent (.fault c rfl) hs

theorem Stmt.AllAlike.execFrom {program program' : List Stmt} (h : Stmt.AllAlike program program')
    (hdiv : Stmt.anyDivides program = false) {v v' : Value} (hv : v.type = v'.type) {st st' : State}
    (hs : st.scope.Alike st'.scope) (hsink : st.sink.Accepts) (hsink' : st'.sink.Accepts) :
    RunsAlike st st' (Stmt.execFrom v program st) (Stmt.execFrom v' program' st') := by
  match h with
  | .nil => exact .silent (.ok hv) hs
  | @Stmt.AllAlike.cons stmt stmt' _ _ hstmt hrest =>
      simp only [Stmt.anyDivides, Bool.or_eq_false_iff] at hdiv
      have hruns := Stmt.Alike.exec hstmt hdiv.1 hs hsink hsink'
      rw [Stmt.execFrom, Stmt.execFrom]
      generalize stmt.exec st = x, stmt'.exec st' = x' at hruns ⊢
      obtain ⟨result, middle⟩ := x
      obtain ⟨result', middle'⟩ := x'
      obtain ⟨houtcome, hscope, houtput⟩ := hruns
      cases houtcome with
      | error hd => exact ⟨.error hd, hscope, houtput⟩
      | ok hv' =>
          obtain ⟨hmiddle, hmiddle'⟩ := houtput.accepts hsink hsink'
          have hruns := Stmt.AllAlike.execFrom hrest hdiv.2 hv' hscope hmiddle hmiddle'
          exact ⟨hruns.outcome, hruns.scope, houtput.trans hruns.output⟩

end

/-- A program without division, and another one with other literals of the same types, run alike in scopes
with the same names, as mutable and with values of the same types, if all output is accepted. -/
theorem execution_depends_on_types_only {program program' : List Stmt}
    (hprogram : Stmt.AllAlike program program') (hdiv : Stmt.anyDivides program = false) {st st' : State}
    (hscope : st.scope.Alike st'.scope) (hsink : st.sink.Accepts) (hsink' : st'.sink.Accepts) :
    RunsAlike st st' (Stmt.execAll program st) (Stmt.execAll program' st') :=
  hprogram.execFrom hdiv rfl hscope hsink hsink'

/-- Both programs print a truth value, replace it by a string and then fail to add a truth value to it. -/
theorem execution_depends_on_types_only_sum :
    let c : Context := .atLine [] 1
    let x : Token := ⟨.identifier, Text.ofString "x", .none, 1⟩
    let plus : Token := ⟨.plus, Text.ofString "+", .none, 1⟩
    let text (s : String) : Token := ⟨.string, [], .text (Text.ofString s), 1⟩
    let truth (word : Keyword) : Token := ⟨.keyword word, word.spelling, .none, 1⟩
    let program (s : String) (word : Keyword) : List Stmt :=
      [.println c (.reference c x), .expr c (.assign c x (.literal c (text s))),
        .expr c (.binary c plus (.reference c x) (.literal c (truth word)))]
    let start (b : Bool) : State := ⟨.root (Frame.empty.define x.lexeme ⟨true, .ofBool b⟩), .unlimited⟩
    let first := Stmt.execAll (program "a" .trueKw) (start true)
    let second := Stmt.execAll (program "" .falseKw) (start false)
    (∃ v w, first.1 = .error ⟨c, .unsupportedOperands .plus v w⟩) ∧
      first.2.sink.writes = [Text.ofString "true\n"] ∧ RunsAlike (start true) (start false) first second := by
  intro c x plus text truth program start first second
  have hprogram : Stmt.AllAlike (program "a" .trueKw) (program "" .falseKw) :=
    .cons (.println c (.reference c x)) (.cons (.expr c (.assign c x (.literal rfl)))
      (.cons (.expr c (.binary c plus (.reference c x) (.literal rfl))) .nil))
  have hscope : (start true).scope.Alike (start false).scope :=
    .root (Frame.Alike.define (fun _ => .none) x.lexeme ⟨rfl, rfl⟩)
  have hwrites : first.2.sink.writes = [Text.ofString "true\n"] := by decide +kernel
  have haccepts := Sink.unlimited_accepts
  exact ⟨⟨.ofText (Text.ofString "a"), .ofBool true, rfl⟩, hwrites,
    execution_depends_on_types_only hprogram rfl hscope haccepts haccepts⟩

end LetScript
