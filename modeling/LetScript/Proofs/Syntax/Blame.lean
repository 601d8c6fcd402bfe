import LetScript.Proofs.Syntax.Continuation

/-!
# The first token that is out of place

A reader decides with one token in sight and never looks back, so that the token it refuses is the first
that cannot stand where it stands: the tokens before it only want more, and with it no further token
matters. Refused targets are apart, as the right side of the assignment has been read by then.

Both halves are needed to put readers in a row. `Accounts` has them: what a reader has read it reads again
before any tokens that start alike, and for what it refuses there is a token to blame.
-/

namespace LetScript

open Grammar Phrase

/-- There are no tokens, or the first is that of the others. -/
def StartsLike (rest xs : List Token) : Prop := ∀ t ∈ xs.head?, t ∈ rest.head?

namespace StartsLike

variable {rest xs : List Token}

theorem nil : StartsLike rest [] := by
  intro t ht
  cases ht

theorem of_head {t : Token} (ht : t ∈ rest.head?) (xs : List Token) : StartsLike rest (t :: xs) := by
  rintro t' ⟨⟩
  exact ht

theorem cons (t : Token) (more xs : List Token) : StartsLike (t :: more) (t :: xs) := of_head rfl xs

theorem append (h : StartsLike rest xs) (used : List Token) : StartsLike (used ++ rest) (used ++ xs) := by
  cases used with
  | nil => exact h
  | cons t more => exact cons t _ _

theorem before (before : List Token) (t : Token) (after : List Token) :
    StartsLike (before ++ t :: after) before := by
  have hlike : StartsLike (before ++ t :: after) (before ++ []) := nil.append before
  rwa [List.append_nil] at hlike

theorem ends {level : Level} (h : StartsLike rest xs) (hends : Ends level rest) : Ends level xs :=
  fun t ht => hends t (h t ht)

end StartsLike

namespace Reading

variable {r r' : Reading} {α β : Type}

theorem Agrees.refl (r : Reading) : r.Agrees r := ⟨rfl, rfl⟩

/-- The reader wants more tokens. -/
def Wants (x : Except Diagnostic β) : Prop := ∃ d, x = .error d ∧ d.fault.incomplete

theorem Wants.bind {x : Except Diagnostic α} (h : Wants x) (f : α → Except Diagnostic β) :
    Wants (x.bind f) := by
  obtain ⟨d, rfl, hd⟩ := h
  exact ⟨d, rfl, hd⟩

/-- A token of `ts` is to blame for a diagnostic: before it the reader wants more, and with it fails. -/
def Blames (read : Reading → List Token → Except Diagnostic β) (r : Reading) (ts : List Token)
    (d : Diagnostic) : Prop :=
  ∃ before t after wanted, ts = before ++ t :: after ∧ d = r.refuse wanted [t] ∧
    ∀ r', r.Agrees r' → Wants (read r' before) ∧ ∀ us, read r' (before ++ t :: us) = .error d

/-- What fails behind `pre` lets another reader fail that starts with `pre`. -/
theorem Blames.after {read₁ : Reading → List Token → Except Diagnostic α}
    {read₂ : Reading → List Token → Except Diagnostic β} {more : List Token} {d : Diagnostic}
    (h : Blames read₁ r more d) (pre : List Token)
    (hread : ∀ r' xs d', r.Agrees r' → StartsLike more xs → read₁ r' xs = .error d' →
      read₂ r' (pre ++ xs) = .error d') : Blames read₂ r (pre ++ more) d := by
  obtain ⟨before, t, after, wanted, rfl, hd, h⟩ := h
  refine ⟨pre ++ before, t, after, wanted, by simp, hd, fun r' hr => ⟨?_, fun us => ?_⟩⟩
  · obtain ⟨d', hwants, hd'⟩ := (h r' hr).1
    exact ⟨d', hread r' before d' hr (.before before t after) hwants, hd'⟩
  · rw [List.append_assoc]
    exact hread r' _ d hr ((StartsLike.cons t after us).append before) ((h r' hr).2 us)

/-- The first of the tokens is to blame if it fails whatever follows. -/
theorem Blames.first {read : Reading → List Token → Except Diagnostic β} (pre : List Token)
    {rest : List Token} {wanted : Expectation} (hd : (r.refuse wanted rest).fault.incomplete = false)
    (hwants : ∀ r', r.Agrees r' → Wants (read r' pre))
    (hread : ∀ r' t us, r.Agrees r' → t ∈ rest.head? →
      read r' (pre ++ t :: us) = .error (r.refuse wanted [t])) :
    Blames read r (pre ++ rest) (r.refuse wanted rest) := by
  cases rest with
  | nil => cases hd
  | cons t after =>
      exact ⟨pre, t, after, wanted, rfl, rfl, fun r' hr => ⟨hwants r' hr, fun us => hread r' t us hr rfl⟩⟩

/-! ## Expressions -/

theorem Stops.blames {level : Level} {ts : List Token} {d : Diagnostic} (h : Stops r level ts d)
    (hd : d.fault.incomplete = false) (htarget : ¬ d.RefusesTarget) :
    Blames (fun r => r.readLevel level) r ts d := by
  induction h with
  | @start ts hstart =>
      refine .first [] hd (fun r' _ => ⟨_, rfl, rfl⟩) fun r' t us hr ht => ?_
      obtain ⟨hliteral, hname, hparen⟩ := hstart t ht
      rw [← Token.Kind.isLiteral_iff] at hliteral
      simp only [List.nil_append, readLevel]
      rw [outcome_primary, if_neg hliteral, if_neg hname, if_neg hparen, hr.refuse_cons]
  | @inner opening more d hopening _ ih =>
      refine (ih hd htarget).after [opening] fun r' xs d' _ _ h => ?_
      rw [List.singleton_append, readLevel_inner hopening, h, bind_error]
  | @closing opening used rest inner hopening hs hends hkind =>
      have hread : ∀ r' xs, r.Agrees r' → StartsLike rest xs →
          r'.readLevel .primary (opening :: used ++ xs) =
            (outcome (r'.expect .rightParen .closingParen xs)).bind fun p =>
              .ok (.group (r'.place opening) inner, p.2) := by
        intro r' xs hr hxs
        have hinner := (finds_of_spells (hr.spells hs)).readLevel (hxs.ends hends)
        rw [List.cons_append, readLevel_inner hopening, hinner, bind_ok]
      rw [← List.cons_append]
      refine .first (opening :: used) hd (fun r' hr => ?_) fun r' t us hr ht => ?_
      · have hnil := hread r' [] hr .nil
        rw [List.append_nil] at hnil
        exact ⟨_, hnil, rfl⟩
      · rw [hread r' (t :: us) hr (.of_head ht us), outcome_expect]
        simp only [hkind t ht, ↓reduceIte, bind_error]
        rw [hr.refuse_cons]
  | @unary op more d hop _ ih =>
      refine (ih hd htarget).after [op] fun r' xs d' _ _ h => ?_
      rw [List.singleton_append, readLevel_signed hop, h, bind_error]
  | @primary ts d hsign _ ih =>
      refine (ih hd htarget).after [] fun r' xs d' _ hxs h => ?_
      rw [List.nil_append]
      cases xs with
      | nil => rw [readLevel, outcome_unary]; exact h
      | cons t xs => rw [readLevel_unsigned (hsign t (hxs t rfl))]; exact h
  | operand _ ih =>
      refine (ih hd htarget).after [] fun r' xs d' _ _ h => ?_
      rw [List.nil_append, readLevel, outcome_layer, outcome_operand, h, bind_error]
  | @right l used more left op d hs hop _ ih =>
      rw [List.append_cons]
      refine (ih hd htarget).after (used ++ [op]) fun r' xs d' hr _ h => ?_
      rw [← List.append_cons, readLevel_right (hr.spells hs) hop, h, bind_error]
  | equality _ ih =>
      refine (ih hd htarget).after [] fun r' xs d' _ _ h => ?_
      have hlayer : outcome (r'.layer .equality xs) = .error d' := h
      rw [List.nil_append, readLevel, outcome_expression, hlayer, bind_error]
  | @value used more left sign d hs hsign _ ih =>
      rw [List.append_cons]
      refine (ih hd htarget).after (used ++ [sign]) fun r' xs d' hr _ h => ?_
      rw [← List.append_cons, readLevel_value (hr.spells hs) hsign, h, bind_error]
  | target => exact absurd ⟨_, rfl⟩ htarget

/-! ## Readers in a row -/

/-- What a reader makes of some tokens, it makes of them before others that start alike. -/
def Keeps (read : Reading → List Token → Except Diagnostic (α × List Token)) (r : Reading)
    (ts : List Token) (tree : α) (rest : List Token) : Prop :=
  ∃ used, ts = used ++ rest ∧
    ∀ r' xs, r.Agrees r' → StartsLike rest xs → read r' (used ++ xs) = .ok (tree, xs)

/-- A reader keeps what it has read and has a token to blame for what it refuses. -/
structure Accounts (read : Reading → List Token → Except Diagnostic (α × List Token)) (r : Reading)
    (ts : List Token) : Prop where
  ok : ∀ tree rest, read r ts = .ok (tree, rest) → Keeps read r ts tree rest
  error : ∀ d, read r ts = .error d → d.fault.incomplete = false → ¬ d.RefusesTarget → Blames read r ts d

namespace Accounts

variable {read : Reading → List Token → Except Diagnostic (α × List Token)} {ts : List Token}

/-- A reader that takes one token, whatever follows. -/
theorem one {t : Token} (tree : α) (hread : ∀ r' xs, read r' (t :: xs) = .ok (tree, xs)) :
    Accounts read r (t :: ts) := by
  refine ⟨fun tree' rest h => ?_, fun d h => ?_⟩
  · rw [hread] at h
    cases h
    exact ⟨[t], rfl, fun r' xs _ _ => hread r' xs⟩
  · rw [hread] at h
    cases h

theorem none (tree : α)
    (hread : ∀ r' xs, r.Agrees r' → StartsLike ts xs → read r' xs = .ok (tree, xs)) :
    Accounts read r ts := by
  have hself := hread r ts (.refl r) fun _ ht => ht
  refine ⟨fun tree' rest h => ?_, fun d h => ?_⟩
  · rw [hself] at h
    cases h
    exact ⟨[], rfl, hread⟩
  · rw [hself] at h
    cases h

theorem refused (wanted : Expectation)
    (hread : ∀ r' xs, r.Agrees r' → StartsLike ts xs → read r' xs = .error (r'.refuse wanted xs)) :
    Accounts read r ts := by
  have hself := hread r ts (.refl r) fun _ ht => ht
  refine ⟨fun tree rest h => ?_, fun d h hd _ => ?_⟩
  · rw [hself] at h
    cases h
  · rw [hself] at h
    cases h
    refine .first [] hd (fun r' hr => ⟨_, hread r' [] hr .nil, rfl⟩) fun r' t us hr ht => ?_
    rw [List.nil_append, hread r' _ hr (.of_head ht us), hr.refuse_cons]

theorem bind (h : Accounts read r ts) {f : Reading → α → List Token → Except Diagnostic (β × List Token)}
    (hf : ∀ tree rest, read r ts = .ok (tree, rest) → Accounts (fun r => f r tree) r rest) :
    Accounts (fun r ts => (read r ts).bind fun p => f r p.1 p.2) r ts := by
  refine ⟨fun tree' rest' hok => ?_, fun d herror hd htarget => ?_⟩
  · obtain ⟨⟨tree, rest⟩, hread, hfread⟩ := bind_eq_ok_iff.1 hok
    obtain ⟨used, rfl, hkept⟩ := h.ok _ _ hread
    obtain ⟨used', rfl, hkept'⟩ := (hf _ _ hread).ok _ _ hfread
    refine ⟨used ++ used', by simp, fun r' xs hr hxs => ?_⟩
    dsimp only
    rw [List.append_assoc, hkept r' _ hr (hxs.append used'), bind_ok]
    exact hkept' r' xs hr hxs
  · rcases bind_eq_error_iff.1 herror with hread | ⟨⟨tree, rest⟩, hread, hfread⟩
    · refine (h.error d hread hd htarget).after [] fun r' xs d' _ _ hxs => ?_
      rw [List.nil_append, hxs, bind_error]
    · obtain ⟨used, rfl, hkept⟩ := h.ok _ _ hread
      refine ((hf _ _ hread).error d hfread hd htarget).after used fun r' xs d' hr hlike hxs => ?_
      rw [hkept r' xs hr hlike, bind_ok]
      exact hxs

/-- What has been read is only wrapped up. -/
theorem map (h : Accounts read r ts) {g : Reading → α → β}
    (hg : ∀ r' tree, r.Agrees r' → g r' tree = g r tree) :
    Accounts (fun r ts => (read r ts).bind fun p => .ok (g r p.1, p.2)) r ts := by
  refine h.bind (f := fun r tree ts => .ok (g r tree, ts)) fun tree rest _ => ⟨?_, fun d h => by cases h⟩
  rintro tree' rest' ⟨⟩
  exact ⟨[], rfl, fun r' xs hr _ => by simp [hg r' tree hr]⟩

/-- A reader that another one starts with a token. -/
theorem cons {read' : Reading → List Token → Except Diagnostic (α × List Token)} {t : Token}
    (h : Accounts read r ts) (hread : ∀ r' xs, r.Agrees r' → read' r' (t :: xs) = read r' xs) :
    Accounts read' r (t :: ts) := by
  refine ⟨fun tree rest hok => ?_, fun d herror hd htarget => ?_⟩
  · rw [hread r ts (.refl r)] at hok
    obtain ⟨used, rfl, hkept⟩ := h.ok _ _ hok
    refine ⟨t :: used, rfl, fun r' xs hr hxs => ?_⟩
    rw [List.cons_append, hread r' _ hr]
    exact hkept r' xs hr hxs
  · rw [hread r ts (.refl r)] at herror
    refine (h.error d herror hd htarget).after [t] fun r' xs d' hr _ hxs => ?_
    rw [List.singleton_append, hread r' xs hr, hxs]

/-- Readers that agree if there is a token, and else both want one. -/
theorem congr {read' : Reading → List Token → Except Diagnostic (α × List Token)} {t : Token}
    (h : Accounts read r (t :: ts)) (hnil : ∀ r', Wants (read r' [])) (hnil' : ∀ r', Wants (read' r' []))
    (hread : ∀ r' xs, r.Agrees r' → read' r' (t :: xs) = read r' (t :: xs)) :
    Accounts read' r (t :: ts) := by
  refine ⟨fun tree rest hok => ?_, fun d herror hd htarget => ?_⟩
  · rw [hread r ts (.refl r)] at hok
    obtain ⟨used, hused, hkept⟩ := h.ok _ _ hok
    refine ⟨used, hused, fun r' xs hr hxs => ?_⟩
    cases used with
    | nil =>
        obtain ⟨d, hwants, -⟩ := hnil r
        have hok' := hkept r [] (.refl r) .nil
        rw [List.append_nil, hwants] at hok'
        cases hok'
    | cons u used =>
        cases hused
        rw [List.cons_append, hread r' _ hr]
        exact hkept r' xs hr hxs
  · rw [hread r ts (.refl r)] at herror
    obtain ⟨before, t', after, wanted, hts, hd, hblames⟩ := h.error d herror hd htarget
    refine ⟨before, t', after, wanted, hts, hd, fun r' hr => ?_⟩
    obtain ⟨hwants, hfails⟩ := hblames r' hr
    cases before with
    | nil =>
        cases hts
        exact ⟨hnil' r', fun us => (hread r' us hr).trans (hfails us)⟩
    | cons u before =>
        cases hts
        refine ⟨?_, fun us => (hread r' _ hr).trans (hfails us)⟩
        rw [hread r' _ hr]
        exact hwants

end Accounts

/-! ## Statements -/

theorem expression_accounts (ts : List Token) : Accounts (fun r ts => outcome (r.expression ts)) r ts := by
  refine ⟨fun e rest h => ?_, fun d h => (readLevel_stops .expression h).blames⟩
  have hends := readLevel_ends .expression h
  obtain ⟨used, rfl, hs⟩ := expression_spelled h
  exact ⟨used, rfl, fun r' xs hr hxs => (finds_of_spells (hr.spells hs)).readLevel (hxs.ends hends)⟩

theorem expect_accounts (kind : Token.Kind) (wanted : Expectation) (ts : List Token) :
    Accounts (fun r ts => outcome (r.expect kind wanted ts)) r ts := by
  by_cases hkind : ∃ t ∈ ts.head?, t.kind = kind
  · obtain ⟨t, ht, hkind⟩ := hkind
    obtain ⟨more, rfl⟩ := List.head?_eq_some_iff.1 ht
    exact .one t fun r' xs => outcome_expect_of_kind hkind wanted xs
  · refine .refused wanted fun r' xs _ hxs => ?_
    rw [outcome_expect]
    cases xs with
    | nil => rfl
    | cons t xs =>
        have ht : t.kind ≠ kind := fun ht => hkind ⟨t, hxs t rfl, ht⟩
        simp only [ht, ↓reduceIte]

theorem terminator_accounts (wanted : Expectation) (ts : List Token) :
    Accounts (fun r ts => outcome (r.terminator wanted ts)) r ts := by
  by_cases hstop : ∃ t ∈ ts.head?, t.kind = .semicolon
  · obtain ⟨t, ht, hkind⟩ := hstop
    obtain ⟨more, rfl⟩ := List.head?_eq_some_iff.1 ht
    exact .one () fun r' xs => outcome_terminator_of_semicolon hkind wanted xs
  · have hread : ∀ (r' : Reading) xs, StartsLike ts xs → outcome (r'.terminator wanted xs) =
        if r'.mode = .prompt then .ok ((), xs) else .error (r'.refuse wanted xs) := by
      intro r' xs hxs
      rw [outcome_terminator]
      cases xs with
      | nil => rfl
      | cons t xs =>
          have ht : t.kind ≠ .semicolon := fun ht => hstop ⟨t, hxs t rfl, ht⟩
          simp only [ht, ↓reduceIte]
    by_cases hmode : r.mode = .prompt
    · exact .none () fun r' xs hr hxs => by rw [hread r' xs hxs, hr.mode, if_pos hmode]
    · exact .refused wanted fun r' xs hr hxs => by rw [hread r' xs hxs, hr.mode, if_neg hmode]

theorem terminated_accounts (wanted : Expectation) (ts : List Token) :
    Accounts (fun r => r.terminated wanted) r ts :=
  (expression_accounts ts).bind (f := fun r e ts => (outcome (r.terminator wanted ts)).bind fun q => .ok (e, q.2))
    fun e rest _ => (terminator_accounts wanted rest).map (g := fun _ _ => e) fun _ _ _ => rfl

theorem mutableMark_accounts (ts : List Token) :
    Accounts (fun _ ts => .ok ((mutableMark ts).tree, (mutableMark ts).rest)) r ts := by
  by_cases hmark : ∃ t ∈ ts.head?, t.kind = .keyword .mutKw
  · obtain ⟨t, ht, hkind⟩ := hmark
    obtain ⟨more, rfl⟩ := List.head?_eq_some_iff.1 ht
    exact .one true fun _ xs => by simp [mutableMark, hkind]
  · refine .none false fun _ xs _ hxs => ?_
    cases xs with
    | nil => rfl
    | cons t xs =>
        have ht : t.kind ≠ .keyword .mutKw := fun ht => hmark ⟨t, hxs t rfl, ht⟩
        simp [mutableMark, ht]

theorem initialised_accounts (name : Token) (isMutable : Bool) (ts : List Token) :
    Accounts (fun r => r.initialised name isMutable) r ts := by
  refine (expect_accounts .equal .initializer ts).bind (f := fun r _ ts =>
    (r.terminated .semicolonAfterExpression ts).bind fun p =>
      .ok (Stmt.declare (r.place name) name isMutable p.1, p.2)) fun sign rest _ => ?_
  refine (terminated_accounts _ rest).map (g := fun r => Stmt.declare (r.place name) name isMutable) ?_
  exact fun r' e hr => by rw [hr.place]

theorem declaration_accounts (ts : List Token) :
    Accounts (fun r ts => outcome (r.declaration ts)) r ts := by
  simp only [outcome_declaration_eq]
  refine (mutableMark_accounts ts).bind (f := fun r isMutable ts =>
    (outcome (r.expect .identifier .nameAfterLet ts)).bind fun p => r.initialised p.1 isMutable p.2)
    fun isMutable rest _ => ?_
  exact (expect_accounts _ _ rest).bind fun name rest' _ => initialised_accounts name isMutable rest'

/-- A statement, if there is a token for it to start with. -/
def statementAt (r : Reading) : List Token → Except Diagnostic (Stmt × List Token)
  | [] => .error (r.refuse .expression [])
  | t :: more => outcome (r.statement t more)

theorem statementAt_accounts {t : Token} {more : List Token}
    (hbody : Accounts (fun r ts => outcome (r.body ts)) r more) : Accounts statementAt r (t :: more) := by
  by_cases hlet : t.kind = .keyword .letKw
  · refine (declaration_accounts more).cons fun r' xs _ => ?_
    rw [statementAt, outcome_statement, if_pos hlet]
  by_cases hprintln : t.kind = .keyword .printlnKw
  · have hvalue := (terminated_accounts (r := r) .semicolonAfterStatement more).map
      (g := fun r => Stmt.println (r.place t)) fun r' e hr => by rw [hr.place]
    refine hvalue.cons fun r' xs _ => ?_
    rw [statementAt, outcome_statement, if_neg hlet, if_pos hprintln, outcome_printing_eq]
  by_cases hbrace : t.kind = .leftBrace
  · have hblock := hbody.map (g := fun r => Stmt.block (r.place t)) fun r' e hr => by rw [hr.place]
    refine hblock.cons fun r' xs _ => ?_
    rw [statementAt, outcome_statement, if_neg hlet, if_neg hprintln, if_pos hbrace]
  have hvalue := (terminated_accounts (r := r) .semicolonAfterExpression (t :: more)).map
    (g := fun r => Stmt.expr (r.place t)) fun r' e hr => by rw [hr.place]
  refine hvalue.congr (fun r' => ?_) (fun r' => ⟨_, rfl, rfl⟩) fun r' xs _ => ?_
  · exact Wants.bind (r'.terminated_exhausted _) _
  · rw [statementAt, outcome_statement, if_neg hlet, if_neg hprintln, if_neg hbrace, outcome_evaluation_eq]

theorem body_accounts (ts : List Token) : Accounts (fun r ts => outcome (r.body ts)) r ts := by
  obtain ⟨n, hn⟩ : ∃ n, ts.length = n := ⟨_, rfl⟩
  induction n using Nat.strongRecOn generalizing ts with
  | ind n ih =>
      cases ts with
      | nil =>
          refine .refused .closingBrace fun r' xs _ hxs => ?_
          cases xs with
          | nil => rw [outcome_body]
          | cons t xs => cases hxs t rfl
      | cons t more =>
          simp only [List.length_cons] at hn
          by_cases hclosing : t.kind = .rightBrace
          · refine .one [] fun r' xs => ?_
            rw [outcome_body]
            simp only [hclosing, ↓reduceIte]
          · have hboth := (statementAt_accounts (t := t) (ih more.length (by omega) more rfl)).bind
              (f := fun r first ts => (outcome (r.body ts)).bind fun p => .ok (first :: p.1, p.2))
              fun first rest hread => by
                have hlt := length_lt_of_outcome hread
                exact (ih rest.length (by omega) rest rfl).map (g := fun _ => List.cons first) fun _ _ _ => rfl
            refine hboth.congr (fun r' => ⟨_, rfl, rfl⟩) (fun r' => r'.body_exhausted) fun r' xs _ => ?_
            rw [outcome_body, statementAt]
            simp only [hclosing, ↓reduceIte]

theorem program_eq_statementAt (r : Reading) {ts : List Token} (hne : ts ≠ []) :
    r.program ts = (r.statementAt ts).bind fun p =>
      if r.mode = .prompt then .ok [p.1] else (r.program p.2).bind fun others => .ok (p.1 :: others) := by
  obtain ⟨t, more, rfl⟩ := List.exists_cons_of_ne_nil hne
  rw [program_eq]
  rfl

/-- The tokens before the one that a source blames may be a whole source. -/
theorem program_blames {ts : List Token} {d : Diagnostic} (h : r.program ts = .error d)
    (hd : d.fault.incomplete = false) (htarget : ¬ d.RefusesTarget) :
    ∃ before t after wanted, ts = before ++ t :: after ∧ d = r.refuse wanted [t] ∧
      ∀ r', r.Agrees r' → ((∃ statements, r'.program before = .ok statements) ∨ Wants (r'.program before)) ∧
        ∀ us, r'.program (before ++ t :: us) = .error d := by
  obtain ⟨n, hn⟩ : ∃ n, ts.length = n := ⟨_, rfl⟩
  induction n using Nat.strongRecOn generalizing ts with
  | ind n ih =>
      cases ts with
      | nil =>
          rw [program_eq] at h
          cases h
      | cons first more =>
          have haccounts := statementAt_accounts (t := first) (body_accounts (r := r) more)
          rw [program_eq_statementAt r (by simp), bind_eq_error_iff] at h
          rcases h with hread | ⟨⟨tree, rest⟩, hread, h⟩
          · obtain ⟨before, t, after, wanted, hts, rfl, hblames⟩ := haccounts.error d hread hd htarget
            refine ⟨before, t, after, wanted, hts, rfl, fun r' hr => ⟨?_, fun us => ?_⟩⟩
            · by_cases hbefore : before = []
              · exact Or.inl ⟨[], by rw [hbefore, program_eq]⟩
              · rw [program_eq_statementAt r' hbefore]
                exact Or.inr ((hblames r' hr).1.bind _)
            · rw [program_eq_statementAt r' (by simp), (hblames r' hr).2 us, bind_error]
          · dsimp only at h
            split at h
            · cases h
            · rename_i hmode
              obtain ⟨used, hts, hkept⟩ := haccounts.ok _ _ hread
              rcases bind_eq_error_iff.1 h with hrest | ⟨others, -, h⟩
              · have hlt := length_lt_of_outcome hread
                simp only [List.length_cons] at hn
                obtain ⟨before, t, after, wanted, rfl, rfl, hblames⟩ := ih rest.length (by omega) hrest rfl
                -- the first statement stays before whatever is left of the others
                have hprogram : ∀ r' xs, r.Agrees r' → StartsLike (before ++ t :: after) xs →
                    r'.program (used ++ xs) = (r'.program xs).bind fun others => .ok (tree :: others) := by
                  intro r' xs hr hxs
                  have hne : used ++ xs ≠ [] := by
                    intro hnil
                    have hread' := hkept r' xs hr hxs
                    rw [hnil] at hread'
                    cases hread'
                  rw [program_eq_statementAt r' hne, hkept r' xs hr hxs, bind_ok]
                  simp only [hr.mode, hmode, ↓reduceIte]
                refine ⟨used ++ before, t, after, wanted, by simp [hts], rfl, fun r' hr => ⟨?_, fun us => ?_⟩⟩
                · rw [hprogram r' before hr (.before before t after)]
                  rcases (hblames r' hr).1 with ⟨others, hok⟩ | hwants
                  · exact Or.inl ⟨tree :: others, by rw [hok, bind_ok]⟩
                  · exact Or.inr (hwants.bind _)
                · rw [List.append_assoc, hprogram r' _ hr ((StartsLike.cons t after us).append before),
                    (hblames r' hr).2 us, bind_error]
              · cases h

end Reading

/-! ## Sources -/

/-- A source that fails for another reason than the want of tokens or the target of an assignment blames its
first token that is out of place: the tokens before it can be read or have only stopped early, and with it
they fail in the same way however they go on. -/
theorem failure_names_first_misplaced_token (source : Text) (mode : Mode) {ts : List Token}
    (hts : ∀ t ∈ ts, t.kind ≠ .endOfInput) {d : Diagnostic} (h : parseTokens source mode ts = .error d)
    (hd : d.fault.incomplete = false) (htarget : ¬ d.RefusesTarget) :
    ∃ i t wanted, ts[i]? = some t ∧
      d = ⟨.atLine (sourceOrDefault source) t.line, .misplaced wanted t.lexeme⟩ ∧
      ((∃ statements, parseTokens source mode (ts.take i) = .ok statements) ∨
        ∃ d', parseTokens source mode (ts.take i) = .error d' ∧ d'.fault.incomplete) ∧
      ∀ us, parseTokens source mode (ts.take (i + 1) ++ us) = .error d := by
  rw [parseTokens_eq_program source mode hts] at h
  obtain ⟨before, t, after, wanted, rfl, rfl, hblames⟩ := Reading.program_blames h hd htarget
  -- the line on which the input ends is another one for other tokens, and does not matter
  have hagrees : ∀ line, Reading.Agrees ⟨sourceOrDefault source, mode, Token.lastLine (before ++ t :: after)⟩
      ⟨sourceOrDefault source, mode, line⟩ := fun _ => ⟨rfl, rfl⟩
  have htake : (before ++ t :: after).take (before.length + 1) = before ++ [t] := by
    rw [List.append_cons, List.take_left' (by simp)]
  rw [List.append_cons, List.forall_mem_append] at hts
  have hbefore : ∀ t ∈ before, t.kind ≠ .endOfInput := (List.forall_mem_append.1 hts.1).1
  refine ⟨before.length, t, wanted, by simp, rfl, ?_, fun us => ?_⟩
  · rw [List.take_left, parseTokens_eq_program source mode hbefore]
    exact (hblames _ (hagrees _)).1
  · have hfails := (hblames _ (hagrees (Token.lastLine (before ++ [t] ++ us)))).2
    simp only [htake, parseTokens]
    rw [takeWhile_tokens hts.1, ← List.append_cons before t (us.takeWhile _), hfails]

/-- What was wanted in the place of which lexeme. -/
def misplaced? {α : Type} : Except Diagnostic α → Option (Expectation × Text)
  | .error ⟨_, .misplaced wanted lexeme⟩ => some (wanted, lexeme)
  | _ => none

theorem exists_of_misplaced? {α : Type} {x : Except Diagnostic α} {wanted : Expectation} {lexeme : Text}
    (h : misplaced? x = some (wanted, lexeme)) : ∃ d, x = .error d ∧ d.fault = .misplaced wanted lexeme := by
  unfold misplaced? at h
  split at h
  · cases h
    exact ⟨_, rfl, rfl⟩
  · cases h

/-- In a block, a parenthesis with two names: the second is to blame, on its line. -/
theorem failure_names_first_misplaced_token_name :
    let b : Token := ⟨.identifier, Text.ofString "b", .none, 2⟩
    let ts := [Token.ofKind .leftBrace, .ofKind .leftParen, .ofKind .identifier, b, .ofKind .rightBrace]
    (∀ t ∈ ts, t.kind ≠ .endOfInput) ∧ ∃ d, parseTokens [] .file ts = .error d ∧
      d.fault = .misplaced .closingParen (Text.ofString "b") ∧ d.fault.incomplete = false ∧
      ¬ d.RefusesTarget ∧ ∃ i t, ts[i]? = some t ∧ t.lexeme = Text.ofString "b" ∧
        d.context = .atLine (Text.ofString "input") t.line ∧
        ∀ us, parseTokens [] .file (ts.take (i + 1) ++ us) = .error d := by
  intro b ts
  have hkinds : ∀ t ∈ ts, t.kind ≠ .endOfInput := by decide
  have hrefused : misplaced? (parseTokens [] .file ts) = some (.closingParen, Text.ofString "b") := by
    decide +kernel
  obtain ⟨d, hfail, hfault⟩ := exists_of_misplaced? hrefused
  have hd : d.fault.incomplete = false := by rw [hfault]; rfl
  have htarget : ¬ d.RefusesTarget := by
    rintro ⟨lexeme, hassignable⟩
    rw [hfault] at hassignable
    cases hassignable
  obtain ⟨i, t, wanted, ht, rfl, -, hfails⟩ :=
    failure_names_first_misplaced_token [] .file hkinds hfail hd htarget
  have hlexeme : t.lexeme = Text.ofString "b" := (Fault.misplaced.inj hfault).2
  exact ⟨hkinds, _, hfail, hfault, hd, htarget, i, t, ht, hlexeme, rfl, hfails⟩

end LetScript
