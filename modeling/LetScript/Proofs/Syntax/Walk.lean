import LetScript.Proofs.Syntax.Cursor

/-!
# Walks and readers

A cursor stands before the tokens that it has not passed, and these are what a reader is given. `Runs` says that a
walk does what a reader does: it has an outcome, finds the same and leaves the same. The rules for walks one after
the other, and for the steps of the cursor, follow from what a cursor keeps on its way (`Cursor.Orderly`).
-/

namespace LetScript

open Grammar Phrase Walk

/-! ## Cursors on their way -/

namespace Cursor

/-- Something done with a cursor that does not pass a limit; what has been read is not empty. -/
def Event.Within (limit : Nat) : Event → Prop
  | peek index => index ≤ limit
  | previous index => index < limit
  | parsed start stop => start < stop ∧ stop ≤ limit

/-- A cursor that has never passed a limit and never gone back. -/
structure Orderly (limit : Nat) (c : Cursor) : Prop where
  within : c.position ≤ limit
  events : ∀ e ∈ c.trace, e.Within limit
  forwards : (c.position :: c.trace.map Event.place).Pairwise (· ≥ ·)

theorem Orderly.log {limit : Nat} {c : Cursor} {e : Event} (h : Orderly limit c) (he : e.Within limit)
    (hplace : e.place = c.position) : Orderly limit (c.log e) where
  within := h.within
  events := List.forall_mem_cons.2 ⟨he, h.events⟩
  forwards := by
    have hforwards := h.forwards
    simp only [Cursor.log, List.map_cons, hplace, List.pairwise_cons] at hforwards ⊢
    exact ⟨List.forall_mem_cons.2 ⟨Nat.le_refl _, hforwards.1⟩, hforwards⟩

theorem Orderly.forward {limit : Nat} {c : Cursor} (h : Orderly limit c) (hlimit : c.position < limit) :
    Orderly limit ⟨c.position + 1, c.trace⟩ where
  within := hlimit
  events := h.events
  forwards := by
    have hforwards := h.forwards
    simp only [List.pairwise_cons] at hforwards ⊢
    exact ⟨fun p hp => Nat.le_succ_of_le (hforwards.1 p hp), hforwards.2⟩

end Cursor

/-! ## Walks as readers -/

namespace Walk

variable {α β : Type}

theorem start_bind_ok {w : Walk α} {c c' : Cursor} {a : α} (h : w.start c = some (.ok a, c'))
    (f : α → Walk β) : (w >>= f).start c = (f a).start c' := by
  change (w.run.run c).bind _ = _
  rw [show w.run.run c = _ from h]
  rfl

theorem start_bind_error {w : Walk α} {c c' : Cursor} {d : Diagnostic} (h : w.start c = some (.error d, c'))
    (f : α → Walk β) : (w >>= f).start c = some (.error d, c') := by
  change (w.run.run c).bind _ = _
  rw [show w.run.run c = _ from h]
  rfl

end Walk

/-- Tokens of which the first end of input is marked. -/
structure Marked where
  source : Text
  mode : Mode
  before : List Token
  stop : Token
  after : List Token
  before_ne : ∀ t ∈ before, t.kind ≠ .endOfInput
  stop_kind : stop.kind = .endOfInput

namespace Marked

def track (m : Marked) : Track := ⟨m.source, m.mode, m.before ++ m.stop :: m.after⟩

def reading (m : Marked) : Reading := ⟨m.source, m.mode, m.stop.line⟩

/-- The cursor stands before the tokens that are left up to the end of input. -/
def Faces (m : Marked) (c : Cursor) (ts : List Token) : Prop :=
  ∃ passed, m.before = passed ++ ts ∧ passed.length = c.position

/-- Where the tokens are left, a walk finds what a reader finds and leaves what it leaves, whatever the number of
rounds is from some number on. -/
def Runs {α : Type} (m : Marked) (w : Nat → Walk α) (ts : List Token)
    (x : Except Diagnostic (α × List Token)) : Prop :=
  ∀ c, m.Faces c ts → c.Orderly m.before.length →
    ∃ c' least, (∀ n ≥ least, (w n).start c = some (x.map Prod.fst, c')) ∧ c'.Orderly m.before.length ∧
      ∀ a rest, x = .ok (a, rest) → m.Faces c' rest

variable {m : Marked} {α β : Type} {ts : List Token}

/-- The token at the cursor. -/
def facing (m : Marked) (ts : List Token) : Token := ts.headD m.stop

@[simp] theorem facing_nil : m.facing [] = m.stop := rfl

@[simp] theorem facing_cons (t : Token) (more : List Token) : m.facing (t :: more) = t := rfl

theorem Faces.suffix {c : Cursor} (h : m.Faces c ts) : ts <:+ m.before := by
  obtain ⟨passed, hbefore, -⟩ := h
  exact ⟨passed, hbefore.symm⟩

theorem Faces.position_add {c : Cursor} (h : m.Faces c ts) : c.position + ts.length = m.before.length := by
  obtain ⟨passed, hbefore, hposition⟩ := h
  rw [hbefore, ← hposition, List.length_append]

theorem Faces.getElem? {c : Cursor} (h : m.Faces c ts) : m.track.tokens[c.position]? = some (m.facing ts) := by
  obtain ⟨passed, hbefore, hposition⟩ := h
  simp only [track, hbefore, ← hposition, List.append_assoc]
  rw [List.getElem?_append_right (Nat.le_refl _), Nat.sub_self]
  cases ts <;> rfl

/-- A walk matters only where the tokens that are left are the last of those before the end of input. -/
theorem Runs.of_suffix {w : Nat → Walk α} {x : Except Diagnostic (α × List Token)}
    (h : ts <:+ m.before → m.Runs w ts x) : m.Runs w ts x := by
  intro c hfaces horderly
  exact h hfaces.suffix c hfaces horderly

/-- One round more does not matter. -/
theorem Runs.of_succ {w : Nat → Walk α} {x : Except Diagnostic (α × List Token)}
    (h : m.Runs (fun n => w (n + 1)) ts x) : m.Runs w ts x := by
  intro c hfaces horderly
  obtain ⟨c', least, hstart, hrest⟩ := h c hfaces horderly
  refine ⟨c', least + 1, fun n hn => ?_, hrest⟩
  obtain ⟨j, rfl⟩ : ∃ j, n = j + 1 := ⟨n - 1, by omega⟩
  exact hstart j (by omega)

theorem runs_pure (a : α) : m.Runs (fun _ => pure a) ts (.ok (a, ts)) := by
  intro c hfaces horderly
  refine ⟨c, 0, fun _ _ => rfl, horderly, fun a' rest h => ?_⟩
  cases h
  exact hfaces

theorem runs_throw (d : Diagnostic) : m.Runs (fun _ => (throw d : Walk α)) ts (.error d) := by
  intro c _ horderly
  exact ⟨c, 0, fun _ _ => rfl, horderly, fun a rest h => by cases h⟩

theorem Runs.bind {w : Nat → Walk α} {f : Nat → α → Walk β} {x : Except Diagnostic (α × List Token)}
    {y : α × List Token → Except Diagnostic (β × List Token)} (h : m.Runs w ts x)
    (hf : ∀ a rest, x = .ok (a, rest) → m.Runs (fun n => f n a) rest (y (a, rest))) :
    m.Runs (fun n => w n >>= f n) ts (x.bind y) := by
  intro c hfaces horderly
  obtain ⟨c₁, least₁, hstart₁, horderly₁, hrest₁⟩ := h c hfaces horderly
  cases x with
  | error d =>
      refine ⟨c₁, least₁, fun n hn => ?_, horderly₁, fun a rest h => by cases h⟩
      exact start_bind_error (hstart₁ n hn) (f n)
  | ok p =>
      obtain ⟨a, rest⟩ := p
      obtain ⟨c₂, least₂, hstart₂, hrest₂⟩ := hf a rest rfl c₁ (hrest₁ a rest rfl) horderly₁
      refine ⟨c₂, max least₁ least₂, fun n hn => ?_, hrest₂⟩
      rw [start_bind_ok (hstart₁ n (by omega))]
      exact hstart₂ n (by omega)

theorem Runs.bind_ok {w : Nat → Walk α} {f : Nat → α → Walk β} {a : α} {rest : List Token}
    {y : Except Diagnostic (β × List Token)} (h : m.Runs w ts (.ok (a, rest)))
    (hf : m.Runs (fun n => f n a) rest y) : m.Runs (fun n => w n >>= f n) ts y := by
  refine Runs.bind (x := .ok (a, rest)) (y := fun _ => y) h fun a' rest' heq => ?_
  cases heq
  exact hf

theorem Runs.bind_true {w : Nat → Walk Bool} {f g : Nat → Walk α} {rest : List Token}
    {y : Except Diagnostic (α × List Token)} (h : m.Runs w ts (.ok (true, rest))) (hf : m.Runs f rest y) :
    m.Runs (fun n => w n >>= fun b => if b = true then f n else g n) ts y :=
  h.bind_ok hf

theorem Runs.bind_false {w : Nat → Walk Bool} {f g : Nat → Walk α} {rest : List Token}
    {y : Except Diagnostic (α × List Token)} (h : m.Runs w ts (.ok (false, rest))) (hg : m.Runs g rest y) :
    m.Runs (fun n => w n >>= fun b => if b = true then f n else g n) ts y :=
  h.bind_ok hg

/-- A walk that makes progress may be counted. -/
theorem Runs.counted {w : Nat → Walk α} {x : Except Diagnostic (α × List Token)} (h : m.Runs w ts x)
    (hprogress : ∀ a rest, x = .ok (a, rest) → rest.length < ts.length) :
    m.Runs (fun n => counted (w n)) ts x := by
  intro c hfaces horderly
  obtain ⟨c', least, hstart, horderly', hrest⟩ := h c hfaces horderly
  have hposition : position.start c = some (.ok c.position, c) := rfl
  cases x with
  | error d =>
      refine ⟨c', least, fun n hn => ?_, horderly', fun a rest h => by cases h⟩
      refine (start_bind_ok hposition _).trans ?_
      exact start_bind_error (hstart n hn) _
  | ok p =>
      obtain ⟨a, rest⟩ := p
      have hfaces' := hrest a rest rfl
      have hlonger : c.position < c'.position := by
        have := hprogress a rest rfl
        have := hfaces.position_add
        have := hfaces'.position_add
        omega
      have horderly'' := horderly'.log (e := .parsed c.position c'.position) ⟨hlonger, horderly'.within⟩ rfl
      refine ⟨c'.log (.parsed c.position c'.position), least, fun n hn => ?_, horderly'', fun a' rest' heq => ?_⟩
      · refine (start_bind_ok hposition _).trans ?_
        exact start_bind_ok (hstart n hn) _
      · cases heq
        exact hfaces'

/-! ## Steps of the cursor -/

theorem runs_peek : m.Runs (fun _ => m.track.peek) ts (.ok (m.facing ts, ts)) := by
  intro c hfaces horderly
  refine ⟨c.log (.peek c.position), 0, fun _ _ => ?_, horderly.log horderly.within rfl, fun a rest h => ?_⟩
  · exact Track.start_peek hfaces.getElem?
  · cases h
    exact hfaces

/-- The token before the cursor is the one that has been passed last. -/
theorem runs_previous {t : Token} (h : t :: ts <:+ m.before) :
    m.Runs (fun _ => m.track.previous) ts (.ok (t, ts)) := by
  intro c hfaces horderly
  obtain ⟨earlier, hearlier⟩ := h
  have hposition : c.position = earlier.length + 1 := by
    have hlength := congrArg List.length hearlier
    have hleft := hfaces.position_add
    simp only [List.length_append, List.length_cons] at hlength
    omega
  have htoken : m.track.tokens[earlier.length]? = some t := by
    simp only [track, ← hearlier, List.append_assoc, List.cons_append]
    rw [List.getElem?_append_right (Nat.le_refl _), Nat.sub_self, List.getElem?_cons_zero]
  have hwithin : earlier.length < m.before.length := by
    have := horderly.within
    omega
  refine ⟨c.log (.previous earlier.length), 0, fun _ _ => ?_, ?_, fun a rest heq => ?_⟩
  · exact Track.start_previous hposition htoken
  · exact horderly.log hwithin hposition.symm
  · cases heq
    exact hfaces

theorem runs_forward {t : Token} : m.Runs (fun _ => forward) (t :: ts) (.ok ((), ts)) := by
  intro c hfaces horderly
  have hleft := hfaces.position_add
  rw [List.length_cons] at hleft
  refine ⟨⟨c.position + 1, c.trace⟩, 0, fun _ _ => rfl, horderly.forward (by omega), fun a rest heq => ?_⟩
  cases heq
  obtain ⟨passed, hbefore, hposition⟩ := hfaces
  exact ⟨passed ++ [t], by simp [hbefore], by simp [hposition]⟩

theorem runs_atEnd : m.Runs (fun _ => m.track.atEnd) ts (.ok (ts.isEmpty, ts)) := by
  refine .of_suffix fun hsuffix => ?_
  have hend : decide ((m.facing ts).kind = .endOfInput) = ts.isEmpty := by
    cases ts with
    | nil => simp [m.stop_kind]
    | cons t more =>
        have hne := m.before_ne t (hsuffix.mem List.mem_cons_self)
        simp only [facing_cons, hne, decide_false, List.isEmpty_cons]
  simp only [Track.atEnd, ← hend]
  exact runs_peek.bind_ok (runs_pure _)

theorem runs_advance {t : Token} : m.Runs (fun _ => m.track.advance) (t :: ts) (.ok (t, ts)) := by
  refine .of_suffix fun hsuffix => ?_
  exact runs_atEnd.bind_false (runs_forward.bind_ok (runs_previous hsuffix))

theorem runs_check {t : Token} {kind : Token.Kind} (h : t.kind = kind) :
    m.Runs (fun _ => m.track.check kind) (t :: ts) (.ok (true, t :: ts)) := by
  have hkind : decide (t.kind = kind) = true := decide_eq_true h
  rw [← hkind]
  exact runs_atEnd.bind_false (runs_peek.bind_ok (runs_pure _))

theorem runs_check_not {kind : Token.Kind} (h : ∀ t ∈ ts.head?, t.kind ≠ kind) :
    m.Runs (fun _ => m.track.check kind) ts (.ok (false, ts)) := by
  cases ts with
  | nil => exact runs_atEnd.bind_true (runs_pure _)
  | cons t more =>
      have hkind : decide (t.kind = kind) = false := decide_eq_false (h t rfl)
      rw [← hkind]
      exact runs_atEnd.bind_false (runs_peek.bind_ok (runs_pure _))

theorem runs_accept {t : Token} {kinds : List Token.Kind} (h : t.kind ∈ kinds) :
    m.Runs (fun _ => m.track.accept kinds) (t :: ts) (.ok (true, ts)) := by
  induction kinds with
  | nil => cases h
  | cons kind more ih =>
      by_cases hkind : t.kind = kind
      · exact (runs_check hkind).bind_true (runs_advance.bind_ok (runs_pure _))
      · have hmore : t.kind ∈ more := (List.mem_cons.1 h).resolve_left hkind
        exact (runs_check_not (by simpa using hkind)).bind_false (ih hmore)

theorem runs_accept_not {kinds : List Token.Kind} (h : ∀ t ∈ ts.head?, t.kind ∉ kinds) :
    m.Runs (fun _ => m.track.accept kinds) ts (.ok (false, ts)) := by
  induction kinds with
  | nil => exact runs_pure _
  | cons kind more ih =>
      have hkind : ∀ t ∈ ts.head?, t.kind ≠ kind := fun t ht heq => h t ht (heq ▸ List.mem_cons_self)
      exact (runs_check_not hkind).bind_false (ih fun t ht hmem => h t ht (List.mem_cons_of_mem _ hmem))

theorem refuse_facing (h : ts <:+ m.before) (wanted : Expectation) :
    m.track.refuse wanted (m.facing ts) = m.reading.refuse wanted ts := by
  cases ts with
  | nil => simp only [facing_nil, Track.refuse, m.stop_kind, ↓reduceIte]; rfl
  | cons t more =>
      have hne := m.before_ne t (h.mem List.mem_cons_self)
      simp only [facing_cons, Track.refuse, hne, ↓reduceIte]
      rfl

theorem runs_fail (wanted : Expectation) :
    m.Runs (fun _ => (m.track.fail wanted : Walk α)) ts (.error (m.reading.refuse wanted ts)) := by
  refine .of_suffix fun hsuffix => ?_
  rw [← refuse_facing hsuffix]
  exact runs_peek.bind_ok (runs_throw _)

theorem runs_expect (kind : Token.Kind) (wanted : Expectation) :
    m.Runs (fun _ => m.track.expect kind wanted) ts (outcome (m.reading.expect kind wanted ts)) := by
  rw [Reading.outcome_expect]
  cases ts with
  | nil => exact (runs_check_not (by simp)).bind_false (runs_fail wanted)
  | cons t more =>
      by_cases hkind : t.kind = kind
      · simp only [hkind, ↓reduceIte]
        exact (runs_check hkind).bind_true runs_advance
      · simp only [hkind, ↓reduceIte]
        exact (runs_check_not (by simpa using hkind)).bind_false (runs_fail wanted)

theorem runs_terminator (wanted : Expectation) :
    m.Runs (fun _ => m.track.terminator wanted) ts (outcome (m.reading.terminator wanted ts)) := by
  rw [Reading.outcome_terminator]
  have hmissing : m.Runs (fun _ => if m.mode = .prompt then pure () else m.track.fail wanted) ts
      (if m.mode = .prompt then .ok ((), ts) else .error (m.reading.refuse wanted ts)) := by
    split
    · exact runs_pure ()
    · exact runs_fail wanted
  cases ts with
  | nil => exact (runs_accept_not (by simp)).bind_false hmissing
  | cons t more =>
      by_cases hkind : t.kind = .semicolon
      · simp only [hkind, ↓reduceIte]
        exact (runs_accept (by simp [hkind])).bind_true (runs_pure ())
      · simp only [hkind, ↓reduceIte]
        exact (runs_accept_not (by simp [hkind])).bind_false hmissing

end Marked

end LetScript
