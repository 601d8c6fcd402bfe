import LetScript.Proofs.Syntax.Stops

/-!
# Expressions before more tokens

What the readers of expressions make of tokens when more tokens follow them. An expression that has been
read stays, unless it ended with the tokens and can go on. A failure stays too, unless it was for want of
tokens; it stays the same failure unless the target of an assignment was refused, for then the right side
may go on and fail first.
-/

namespace LetScript

open Grammar Phrase

theorem Grammar.Ends.append {level : Level} {rest : List Token} (h : Ends level rest) (hne : rest ≠ [])
    (us : List Token) : Ends level (rest ++ us) := by
  cases rest with
  | nil => exact absurd rfl hne
  | cons t more => exact h

/-- The diagnostic refuses the target of an assignment. -/
def Diagnostic.RefusesTarget (d : Diagnostic) : Prop := ∃ lexeme, d.fault = .misplaced .assignable lexeme

namespace Reading

variable {r r' : Reading}

/-- Two readings of one source that may differ in the line on which the input ends. -/
structure Agrees (r r' : Reading) : Prop where
  source : r'.source = r.source
  mode : r'.mode = r.mode

theorem Agrees.place (h : r.Agrees r') (t : Token) : r'.place t = r.place t := by
  simp [Reading.place, h.source]

theorem Agrees.refuse_cons (h : r.Agrees r') (wanted : Expectation) (t : Token) (more more' : List Token) :
    r'.refuse wanted (t :: more') = r.refuse wanted (t :: more) := by
  simp [refuse, h.place]

theorem Agrees.spells (h : r.Agrees r') {level : Level} {ts : List Token} {e : Expr}
    (hs : Spells r.source level ts e) : Spells r'.source level ts e := by
  rwa [h.source]

/-! ## Expressions -/

/-- An expression that has been read stays if it cannot go on. -/
theorem readLevel_append (hsource : r'.source = r.source) (level : Level) {ts : List Token} {e : Expr}
    {rest us : List Token} (h : r.readLevel level ts = .ok (e, rest)) (hends : Ends level (rest ++ us)) :
    r'.readLevel level (ts ++ us) = .ok (e, rest ++ us) := by
  obtain ⟨used, rfl, hs⟩ := readLevel_sound h
  rw [← hsource] at hs
  rw [List.append_assoc]
  exact (finds_of_spells hs).readLevel hends

/-- A reader fails where another one has failed with a diagnostic. -/
def Fails {α : Type} (d : Diagnostic) (x : Except Diagnostic α) : Prop :=
  ∃ d', x = .error d' ∧ (¬ d.RefusesTarget → d' = d)

theorem Fails.same {α : Type} {d : Diagnostic} {x : Except Diagnostic α} (h : x = .error d) :
    Fails d x := ⟨d, h, fun _ => rfl⟩

theorem Fails.bind {α β : Type} {d : Diagnostic} {x : Except Diagnostic α} (h : Fails d x)
    (f : α → Except Diagnostic β) : Fails d (x.bind f) := by
  obtain ⟨d', rfl, hd'⟩ := h
  exact ⟨d', rfl, hd'⟩

theorem Stops.ne_nil {ts : List Token} {d : Diagnostic} (h : Stops r .primary ts d)
    (hd : d.fault.incomplete = false) : ts ≠ [] := by
  rintro rfl
  cases h
  cases hd

/-- A failure stays if more tokens follow, unless it was for want of them. -/
theorem Stops.final (hr : r.Agrees r') {level : Level} {ts : List Token} {d : Diagnostic}
    (h : Stops r level ts d) (hd : d.fault.incomplete = false) (us : List Token) :
    Fails d (r'.readLevel level (ts ++ us)) := by
  induction h with
  | @start ts hstart =>
      cases ts with
      | nil => cases hd
      | cons t more =>
          obtain ⟨hliteral, hname, hparen⟩ := hstart t rfl
          rw [← Token.Kind.isLiteral_iff] at hliteral
          refine .same ?_
          simp only [List.cons_append, readLevel]
          rw [outcome_primary, if_neg hliteral, if_neg hname, if_neg hparen, hr.refuse_cons]
  | inner hopening _ ih =>
      rw [List.cons_append, readLevel_inner hopening]
      exact (ih hd).bind _
  | @closing opening used rest inner hopening hs hends hkind =>
      cases rest with
      | nil => cases hd
      | cons t more =>
          have hinner := (finds_of_spells (hr.spells hs)).readLevel (hends.append (by simp) us)
          rw [List.cons_append, List.append_assoc, readLevel_inner hopening, hinner, bind_ok]
          refine (Fails.same ?_).bind _
          rw [outcome_expect, List.cons_append]
          simp only [hkind t rfl, ↓reduceIte]
          rw [hr.refuse_cons]
  | unary hop _ ih =>
      rw [List.cons_append, readLevel_signed hop]
      exact (ih hd).bind _
  | primary hsign hstops ih =>
      obtain ⟨t, more, rfl⟩ := List.exists_cons_of_ne_nil (hstops.ne_nil hd)
      rw [List.cons_append, readLevel_unsigned (hsign t rfl)]
      exact ih hd
  | operand _ ih =>
      rw [readLevel, outcome_layer, outcome_operand]
      exact (ih hd).bind _
  | right hs hop _ ih =>
      rw [List.append_assoc, List.cons_append, readLevel_right (hr.spells hs) hop]
      exact (ih hd).bind _
  | equality _ ih =>
      rw [readLevel, outcome_expression]
      exact (ih hd).bind _
  | value hs hsign _ ih =>
      rw [List.append_assoc, List.cons_append, readLevel_value (hr.spells hs) hsign]
      exact (ih hd).bind _
  | @target used used' rest left value sign hs hleft hsign hs' _ =>
      rw [List.append_assoc, List.cons_append, readLevel_value (hr.spells hs) hsign]
      -- with more tokens the right side may fail before the target is refused
      cases r'.readLevel .expression (used' ++ rest ++ us) with
      | error d' => exact ⟨d', rfl, fun htarget => absurd ⟨_, rfl⟩ htarget⟩
      | ok p =>
          refine .same ?_
          rw [bind_ok, hr.refuse_cons]
          cases left with
          | reference context name => exact absurd rfl (hleft context name)
          | _ => rfl

theorem readLevel_final (hr : r.Agrees r') (level : Level) {ts : List Token} {d : Diagnostic}
    (h : r.readLevel level ts = .error d) (hd : d.fault.incomplete = false) (us : List Token) :
    Fails d (r'.readLevel level (ts ++ us)) :=
  (readLevel_stops level h).final hr hd us

end Reading

end LetScript
