import LetScript.Proofs.Execution.Stores
import LetScript.Proofs.Interpreter.Globals
import LetScript.Proofs.Lexical.Numerals

/-!
# Displayed values

A value is displayed without any escapes. What an interpreter returns or binds to names can all the same be
read back from its text at a prompt: its strings have no quotation marks, and its numbers are written with
enough digits.
-/

namespace LetScript

open Grammar

/-! ## The values of a history -/

namespace Interpreter

/-- The values that a run binds to names, and the value that it returns. -/
def runValues (it : Interpreter) (source text : Text) : List Value :=
  match parse source it.mode text with
  | .error _ => []
  | .ok program => Stmt.storesAll program it.state ++ (it.run source text).1.toOption.toList

/-- The values that a call binds to names or returns. -/
def Call.values : Call → Interpreter → List Value
  | run source text, it => it.runValues source text
  | runInput source input, it =>
    match input.failure with
    | some _ => []
    | none => it.runValues source input.data
  | reset, _ => []

/-- The values that calls bind to names or return. -/
def values : List Call → Interpreter → List Value
  | [], _ => []
  | call :: later, it => call.values it ++ values later (call.perform it)

theorem run_state {it : Interpreter} {source text : Text} {program : List Stmt}
    (h : parse source it.mode text = .ok program) :
    (it.run source text).2.state = (Stmt.execAll program it.state).2 := by
  rw [run, h]
  dsimp only
  cases Stmt.execAll program it.state with
  | mk result st => cases result <;> rfl

theorem run_holds {P : Value → Prop} {it : Interpreter} {source text : Text} (hs : it.state.scope.Holds P)
    (hvalues : ∀ v ∈ it.runValues source text, P v) : (it.run source text).2.state.scope.Holds P := by
  unfold runValues at hvalues
  cases hparse : parse source it.mode text with
  | error d =>
      rw [run, hparse]
      exact hs
  | ok program =>
      rw [hparse] at hvalues
      rw [run_state hparse]
      exact Stmt.execFrom_holds hs (List.forall_mem_append.1 hvalues).1

theorem runValues_plain {it : Interpreter} (hs : it.state.scope.Holds Value.Plain) (source text : Text) :
    ∀ v ∈ it.runValues source text, v.Plain := by
  unfold runValues
  cases hparse : parse source it.mode text with
  | error d => simp
  | ok program =>
      obtain ⟨us, hus, hspells⟩ := spells_plain_of_parse hparse
      have hyields := hspells.yieldsPlain hus .nil hs
      refine List.forall_mem_append.2 ⟨hyields.stored, fun v hv => ?_⟩
      have houtcome := hyields.outcome
      rw [run, hparse] at hv
      dsimp only [Stmt.execAll] at hv
      generalize Stmt.execFrom .nil program it.state = x at houtcome hv
      obtain ⟨result, st⟩ := x
      cases result with
      | error d => simp [Except.toOption] at hv
      | ok w =>
          simp only [Except.toOption, Option.toList_some, List.mem_singleton] at hv
          rw [hv]
          split
          · exact houtcome w rfl
          · exact .nil

theorem liftRun_state (x : Except Diagnostic Value × Interpreter) : (liftRun x).2 = x.2 := by
  obtain ⟨result, it⟩ := x
  cases result <;> rfl

/-- After a call the names hold what they held before and what the call has bound to them. -/
theorem Call.perform_holds {P : Value → Prop} {call : Call} {it : Interpreter} (hs : it.state.scope.Holds P)
    (hvalues : ∀ v ∈ call.values it, P v) : (call.perform it).state.scope.Holds P := by
  cases call with
  | run source text => exact run_holds hs hvalues
  | reset => exact hs
  | runInput source input =>
      simp only [Call.values] at hvalues
      simp only [Call.perform, Interpreter.runInput]
      cases hfailure : input.failure with
      | some cause => exact hs
      | none =>
          rw [hfailure] at hvalues
          dsimp only
          rw [liftRun_state]
          exact run_holds hs hvalues

theorem Call.values_plain (call : Call) {it : Interpreter} (hs : it.state.scope.Holds Value.Plain) :
    ∀ v ∈ call.values it, v.Plain := by
  cases call with
  | run source text => exact runValues_plain hs source text
  | reset => simp [Call.values]
  | runInput source input =>
      simp only [Call.values]
      split
      · simp
      · exact runValues_plain hs source input.data

theorem performAll_holds {P : Value → Prop} {calls : List Call} {it : Interpreter}
    (hs : it.state.scope.Holds P) (hvalues : ∀ v ∈ values calls it, P v) : (performAll calls it).state.scope.Holds P := by
  induction calls generalizing it with
  | nil => exact hs
  | cons call later ih =>
      obtain ⟨hcall, hlater⟩ := List.forall_mem_append.1 hvalues
      exact ih (call.perform_holds hs hcall) hlater

/-- A history that starts with plain values has plain values only. -/
theorem values_plain {calls : List Call} {it : Interpreter} (hs : it.state.scope.Holds Value.Plain) :
    ∀ v ∈ values calls it, v.Plain := by
  induction calls generalizing it with
  | nil => simp [values]
  | cons call later ih =>
      have hcall := call.values_plain hs
      exact List.forall_mem_append.2 ⟨hcall, ih (call.perform_holds hs hcall)⟩

theorem new_holds (P : Value → Prop) (mode : Mode) (sink : Sink) : (new mode sink).state.scope.Holds P := by
  intro name b hb
  cases hb

end Interpreter

/-! ## Reading one expression -/

/-- At a prompt, an expression that only has a value changes nothing. -/
theorem Interpreter.run_of_unary {it : Interpreter} (hmode : it.mode = .prompt) {name text : Text} {t : Token}
    {ts : List Token} {line : Int} {e : Expr} {v : Value}
    (hscan : Token.scan (sourceOrDefault name) text = .ok (t :: ts ++ [.endOfInput line]))
    (hspells : Spells (sourceOrDefault name) .unary (t :: ts) e) (heval : ∀ s, e.eval s = (.ok v, s)) :
    it.run name text = (.ok v, it) := by
  have hparse : parse name it.mode text = .ok [.expr (anchor (sourceOrDefault name) t) e] := by
    rw [parse_eq_program hscan, hmode]
    exact Reading.program_prompt_of_expression rfl hspells.of_unary
  have hexec : Stmt.execAll [.expr (anchor (sourceOrDefault name) t) e] it.state = (.ok v, it.state) := by
    rw [Stmt.execAll, Stmt.execFrom, Stmt.exec, heval]
    rfl
  rw [run, hparse]
  dsimp only
  rw [hexec]
  dsimp only
  rw [if_pos hmode]

/-! ## Reading values back -/

/-- A text is read back as the value at any prompt, and nothing else happens. -/
def Value.ReadsFrom (v : Value) (text : Text) : Prop :=
  ∀ (it : Interpreter) (name : Text), it.mode = .prompt → it.run name text = (.ok v, it)

namespace Value

theorem readsFrom_literal {cls : Lexical.Class} {lexeme : Text} {kind : Token.Kind} {literal : Token.Literal}
    (h : Lexical.InClass cls lexeme kind literal) (hkind : kind ∈ literals) :
    (Token.value ⟨kind, lexeme, literal, 1⟩).ReadsFrom lexeme := by
  intro it name hmode
  have hscan := Lexical.scan_alone h (sourceOrDefault name)
  exact Interpreter.run_of_unary hmode hscan (.primary (.literal hkind)) fun _ => rfl

theorem readsFrom_minus {cls : Lexical.Class} {lexeme : Text} {x : Float}
    (h : Lexical.InClass cls lexeme .number (.number x)) :
    (ofNumber (-x)).ReadsFrom (Text.ofChar '-' ++ lexeme) := by
  intro it name hmode
  obtain ⟨last, hscan⟩ := Lexical.scan_minus h (sourceOrDefault name)
  have hnumber : Spells (sourceOrDefault name) .primary [⟨.number, lexeme, .number x, 1⟩] _ :=
    .literal List.mem_cons_self
  exact Interpreter.run_of_unary hmode hscan (.unary (by decide) (.primary hnumber)) fun _ => rfl

theorem ofText_readsFrom {s : Text} (h : Lexical.quote ∉ s) : (ofText s).ReadsFrom (ofText s).display :=
  readsFrom_literal (.string h) (by decide)

theorem keyword_readsFrom (word : Keyword) {c : Char} {cs : List Char} (hc : Text.isLetter c)
    (hcs : ∀ d ∈ cs, Text.isLetter d)
    (hword : Token.Kind.ofWord ((c :: cs).flatMap Text.ofChar) = .keyword word)
    (hkind : .keyword word ∈ literals) (lexeme : Text) (hlexeme : lexeme = (c :: cs).flatMap Text.ofChar) :
    (Token.value ⟨.keyword word, lexeme, .none, 1⟩).ReadsFrom lexeme := by
  have hclass := Lexical.InClass.word hc fun d hd => .inl (hcs d hd)
  rw [hword, ← hlexeme] at hclass
  exact readsFrom_literal hclass hkind

theorem ofBool_readsFrom (b : Bool) : (ofBool b).ReadsFrom (ofBool b).display := by
  cases b with
  | false =>
      have hletters : ['f', 'a', 'l', 's', 'e'].all Text.isLetter := by decide +kernel
      obtain ⟨hc, hcs⟩ := List.forall_mem_cons.1 (List.all_eq_true.1 hletters)
      exact keyword_readsFrom .falseKw hc hcs (by decide) (by decide) _ (by decide)
  | true =>
      have hletters : ['t', 'r', 'u', 'e'].all Text.isLetter := by decide +kernel
      obtain ⟨hc, hcs⟩ := List.forall_mem_cons.1 (List.all_eq_true.1 hletters)
      exact keyword_readsFrom .trueKw hc hcs (by decide) (by decide) _ (by decide)

/-! ## Numbers -/

theorem ofNumber_readsFrom {x : Float} (h : x.isFinite) : (ofNumber x).ReadsFrom (ofNumber x).display := by
  have hfinite := Binary64.magnitude_lt_infinity h
  have hx := Binary64.toFloat_magnitude h
  have hclass := Lexical.inClass_shortest hfinite
  have hdisplay : (ofNumber x).display =
      (if Binary64.isNegative x then Text.ofString "-" else []) ++
        (Binary64.shortest (Binary64.magnitude x)).numeral.flatMap Text.ofChar := by
    change numberText x = _
    rw [numberText, if_neg (by omega), if_neg (by omega)]
  rw [hdisplay]
  cases hsign : Binary64.isNegative x with
  | false =>
      rw [hsign] at hx
      rw [hx] at hclass
      exact readsFrom_literal hclass List.mem_cons_self
  | true =>
      rw [hsign, ← Binary64.neg_toFloat hfinite] at hx
      have hreads := readsFrom_minus hclass
      rw [hx] at hreads
      exact hreads

end Value

/-- All values that the names of a new interpreter come to hold, or that it returns, hold what their type says,
and no string has a quotation mark in it. If such a value is a truth value, a string or a finite number, its
text is read back as this value at every prompt, where nothing else changes. -/
theorem displayed_values_read_back (mode : Mode) (sink : Sink) (calls : List Interpreter.Call) :
    let it := Interpreter.new mode sink
    (∀ name b, (Interpreter.performAll calls it).globals.get? name = some b →
      b.value ∈ Interpreter.values calls it) ∧
    ∀ v ∈ Interpreter.values calls it, v.Plain ∧
      (v.type = .bool ∨ v.type = .string ∨ (v.type = .number ∧ v.number.isFinite) → v.ReadsFrom v.display) := by
  intro it
  have hnew := Interpreter.new_holds (· ∈ Interpreter.values calls it) mode sink
  have hholds : Scope.Holds _ (Interpreter.performAll calls it).state.scope :=
    Interpreter.performAll_holds hnew fun _ => id
  refine ⟨hholds.globals, fun v hv => ?_⟩
  have hplain := Interpreter.values_plain (Interpreter.new_holds Value.Plain mode sink) v hv
  refine ⟨hplain, fun hkind => ?_⟩
  cases hplain with
  | nil => simp [Value.nil] at hkind
  | bool b => exact Value.ofBool_readsFrom b
  | text hs => exact Value.ofText_readsFrom hs
  | number x =>
      rcases hkind with h | h | ⟨-, hfinite⟩
      · cases h
      · cases h
      · exact Value.ofNumber_readsFrom hfinite

/-- A string with slashes in it that a declaration joins, and negative zero. -/
theorem displayed_values_read_back_joined :
    let calls := [.run [] (Text.ofString "let a = \"x\" + \"//y\""), .run [] (Text.ofString "-0.0")]
    let values := Interpreter.values calls (.new .prompt .unlimited)
    (∃ v ∈ values, v.type = .string ∧ v.text = Text.ofString "x//y" ∧ v.ReadsFrom v.display) ∧
      ∃ v ∈ values, v.type = .number ∧ v.number.toBits = 0x8000000000000000 ∧ v.ReadsFrom v.display := by
  intro calls values
  have hvalues : values.map (fun v => (v.type, v.text, v.number.toBits, v.number.isFinite)) =
      [(.string, Text.ofString "x//y", 0, true), (.nil, [], 0, true),
        (.number, [], 0x8000000000000000, true)] := by decide +kernel
  have hreads := (displayed_values_read_back .prompt .unlimited calls).2
  have hfirst : (.string, Text.ofString "x//y", 0, true) ∈
      values.map fun v => (v.type, v.text, v.number.toBits, v.number.isFinite) := by simp [hvalues]
  have hlast : (.number, [], 0x8000000000000000, true) ∈
      values.map fun v => (v.type, v.text, v.number.toBits, v.number.isFinite) := by simp [hvalues]
  obtain ⟨v, hv, hshape⟩ := List.mem_map.1 hfirst
  obtain ⟨w, hw, hshape'⟩ := List.mem_map.1 hlast
  simp only [Prod.mk.injEq] at hshape hshape'
  exact ⟨⟨v, hv, hshape.1, hshape.2.1, (hreads v hv).2 (.inr (.inl hshape.1))⟩,
    ⟨w, hw, hshape'.1, hshape'.2.2.1, (hreads w hw).2 (.inr (.inr ⟨hshape'.1, hshape'.2.2.2⟩))⟩⟩

end LetScript
