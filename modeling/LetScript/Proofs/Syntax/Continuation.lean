import LetScript.Proofs.Syntax.Refusal

/-!
# Sources that stopped early

A source that fails for want of more can go on. Tokens that close what is open are found along the path of
the readers: an operand where one is missing, parentheses and braces from the inside out, the rest of a
declaration, a terminator. With them the readers take the same path up to the old end and then succeed,
unless an assignment was being read whose target is no name.
-/

namespace LetScript

open Grammar Phrase

/-- A token of a kind, written by its name. -/
def Token.ofKind (kind : Token.Kind) : Token := ⟨kind, kind.name, .none, 1⟩

@[simp] theorem Token.ofKind_kind (kind : Token.Kind) : (Token.ofKind kind).kind = kind := rfl

theorem Grammar.Ends.operand {l : Layer} {vs : List Token} (h : Ends (.layer l) vs) :
    Ends (operandLevel l) vs := by
  intro t ht hc
  refine h t ht ?_
  rw [continuers_layer]
  exact List.mem_append_right _ hc

namespace Reading

variable {r r' : Reading}

/-! ## Expressions -/

/-- The reader gets to the rest, unless it refuses the target of an assignment. -/
def Passes {α : Type} (x : Except Diagnostic (α × List Token)) (rest : List Token) : Prop :=
  (∃ tree, x = .ok (tree, rest)) ∨ ∃ d, x = .error d ∧ d.RefusesTarget

theorem Passes.bind {α β : Type} {x : Except Diagnostic (α × List Token)}
    {f : α × List Token → Except Diagnostic (β × List Token)} {rest rest' : List Token}
    (h : Passes x rest) (hf : ∀ tree, Passes (f (tree, rest)) rest') : Passes (x.bind f) rest' := by
  rcases h with ⟨tree, rfl⟩ | ⟨d, rfl, hd⟩
  · exact hf tree
  · exact Or.inr ⟨d, rfl, hd⟩

/-- Tokens that neither end the input nor assign. -/
def Plain (us : List Token) : Prop := ∀ t ∈ us, t.kind ≠ .endOfInput ∧ t.kind ≠ .equal

theorem Plain.append {us vs : List Token} (hus : Plain us) (hvs : Plain vs) : Plain (us ++ vs) := by
  intro t ht
  exact (List.mem_append.1 ht).elim (hus t) (hvs t)

/-- A literal is an expression of every level. -/
theorem spells_literal (source : Text) {t : Token} (ht : t.kind ∈ literals) (level : Level) :
    Spells source level [t] (.literal (anchor source t) t) := by
  have hunary : Spells source .unary [t] (.literal (anchor source t) t) := .primary (.literal ht)
  have hlayer : ∀ l, Spells source (.layer l) [t] (.literal (anchor source t) t) := by
    intro l
    cases l with
    | product => exact .operand hunary
    | sum => exact .operand (.operand hunary)
    | comparison => exact .operand (.operand (.operand hunary))
    | equality => exact .operand (.operand (.operand (.operand hunary)))
  cases level with
  | expression => exact .equality (hlayer .equality)
  | layer l => exact hlayer l
  | unary => exact hunary
  | primary => exact .literal ht

/-- The tokens `us` close what the reader of a level has open after `ts`. -/
def Closes (r : Reading) (level : Level) (ts us : List Token) : Prop :=
  ∀ r' vs, r.Agrees r' → Ends level vs → Passes (r'.readLevel level (ts ++ (us ++ vs))) vs

theorem closable_nil (r : Reading) (level : Level) : ∃ us, Plain us ∧ Closes r level [] us := by
  refine ⟨[.ofKind (.keyword .nilKw)], by simp [Plain], fun r' vs _ hvs => ?_⟩
  have hliteral := spells_literal r'.source (t := .ofKind (.keyword .nilKw)) (by decide) level
  exact Or.inl ⟨_, (finds_of_spells hliteral).readLevel hvs⟩

theorem refuse_incomplete {wanted : Expectation} {ts : List Token}
    (h : (r.refuse wanted ts).fault.incomplete) : ts = [] := by
  cases ts with
  | nil => rfl
  | cons t more => cases h

theorem expect_incomplete {kind : Token.Kind} {wanted : Expectation} {ts : List Token} {d : Diagnostic}
    (h : outcome (r.expect kind wanted ts) = .error d) (hd : d.fault.incomplete) : ts = [] := by
  rw [(expect_eq_error h).1] at hd
  exact refuse_incomplete hd

/-- What is still open where the tokens stop for want of more can be closed. -/
theorem Stops.closable {level : Level} {ts : List Token} {d : Diagnostic} (h : Stops r level ts d)
    (hd : d.fault.incomplete) : ∃ us, Plain us ∧ Closes r level ts us := by
  have hplain : Plain [.ofKind .rightParen] := by simp [Plain]
  have hclosing : ∀ vs, Ends .expression (.ofKind .rightParen :: vs) :=
    fun vs => .cons (by rw [Token.ofKind_kind]; decide)
  induction h with
  | start =>
      cases refuse_incomplete hd
      exact closable_nil r .primary
  | @inner opening more d hopening _ ih =>
      obtain ⟨us, hus, hcloses⟩ := ih hd
      refine ⟨us ++ [.ofKind .rightParen], hus.append hplain, fun r' vs hr _ => ?_⟩
      rw [List.cons_append, readLevel_inner hopening, List.append_assoc]
      refine (hcloses r' _ hr (hclosing vs)).bind fun inner => Or.inl ⟨.group (r'.place opening) inner, ?_⟩
      simp [outcome_expect]
  | @closing opening used rest inner hopening hs _ _ =>
      cases refuse_incomplete hd
      refine ⟨[.ofKind .rightParen], hplain, fun r' vs hr _ => Or.inl ⟨.group (r'.place opening) inner, ?_⟩⟩
      have hinner := (finds_of_spells (hr.spells hs)).readLevel (hclosing vs)
      rw [List.append_nil, List.cons_append, readLevel_inner hopening, List.singleton_append, hinner]
      simp [outcome_expect]
  | unary hop _ ih =>
      obtain ⟨us, hus, hcloses⟩ := ih hd
      refine ⟨us, hus, fun r' vs hr hvs => ?_⟩
      rw [List.cons_append, readLevel_signed hop]
      exact (hcloses r' vs hr hvs).bind fun operand => Or.inl ⟨_, rfl⟩
  | @primary ts d hsign _ ih =>
      cases ts with
      | nil => exact closable_nil r .unary
      | cons t more =>
          obtain ⟨us, hus, hcloses⟩ := ih hd
          refine ⟨us, hus, fun r' vs hr hvs => ?_⟩
          rw [List.cons_append, readLevel_unsigned (hsign t rfl)]
          exact hcloses r' vs hr hvs
  | operand _ ih =>
      obtain ⟨us, hus, hcloses⟩ := ih hd
      refine ⟨us, hus, fun r' vs hr hvs => ?_⟩
      rw [readLevel, outcome_layer, outcome_operand]
      refine (hcloses r' vs hr (Ends.operand hvs)).bind fun left => ?_
      exact Or.inl ⟨_, outcome_chain_of_ends hvs⟩
  | right hs hop _ ih =>
      obtain ⟨us, hus, hcloses⟩ := ih hd
      refine ⟨us, hus, fun r' vs hr hvs => ?_⟩
      rw [List.append_assoc, List.cons_append, readLevel_right (hr.spells hs) hop]
      refine (hcloses r' vs hr (Ends.operand hvs)).bind fun right => ?_
      exact Or.inl ⟨_, outcome_chain_of_ends hvs⟩
  | equality _ ih =>
      obtain ⟨us, hus, hcloses⟩ := ih hd
      refine ⟨us, hus, fun r' vs hr hvs => ?_⟩
      have hops : Ends (.layer .equality) vs := fun t ht hc => hvs t ht (List.mem_cons_of_mem _ hc)
      rw [readLevel, outcome_expression]
      refine (hcloses r' vs hr hops).bind fun left => Or.inl ⟨left, ?_⟩
      cases vs with
      | nil => rfl
      | cons v vs =>
          have hv : v.kind ≠ .equal := fun heq => hvs v rfl (by rw [heq]; exact List.mem_cons_self)
          simp [hv]
  | @value used more left sign d hs hsign _ ih =>
      obtain ⟨us, hus, hcloses⟩ := ih hd
      refine ⟨us, hus, fun r' vs hr hvs => ?_⟩
      rw [List.append_assoc, List.cons_append, readLevel_value (hr.spells hs) hsign]
      -- only now, with the right side read, is the target looked at
      refine (hcloses r' vs hr hvs).bind fun value => ?_
      cases left with
      | reference context name => exact Or.inl ⟨_, rfl⟩
      | _ => exact Or.inr ⟨_, rfl, _, rfl⟩
  | target => cases refuse_incomplete hd

/-! ## Statements -/

/-- The tokens `us` may be added: they do not end the input and bring no equals sign that could assign. -/
structure Continues (ts us : List Token) : Prop where
  kind_ne : ∀ t ∈ us, t.kind ≠ .endOfInput
  initialises : ∀ before, OnlyInitialises (before ++ ts) → OnlyInitialises (before ++ ts ++ us)

namespace Continues

theorem nil (ts : List Token) : Continues ts [] := ⟨by simp, fun before h => by simpa using h⟩

theorem cons {ts us : List Token} {t : Token} (hkind : t.kind ≠ .endOfInput)
    (ht : t.kind = .equal → AfterName ts) (h : Continues (ts ++ [t]) us) : Continues ts (t :: us) := by
  refine ⟨List.forall_mem_cons.2 ⟨hkind, h.kind_ne⟩, fun before honly => ?_⟩
  have hsnoc := honly.snoc (t := t) fun hequal => (ht hequal).prepend before
  rw [List.append_assoc] at hsnoc
  simpa using h.initialises before hsnoc

theorem of_plain {us : List Token} (hus : Plain us) (ts : List Token) : Continues ts us := by
  induction us generalizing ts with
  | nil => exact nil ts
  | cons t us ih =>
      obtain ⟨⟨hkind, hequal⟩, hus⟩ := List.forall_mem_cons.1 hus
      exact cons hkind (fun h => absurd h hequal) (ih hus _)

theorem append {ts us vs : List Token} (hus : Continues ts us) (hvs : Continues (ts ++ us) vs) :
    Continues ts (us ++ vs) := by
  refine ⟨List.forall_mem_append.2 ⟨hus.kind_ne, hvs.kind_ne⟩, fun before honly => ?_⟩
  have hboth := hvs.initialises before (by simpa using hus.initialises before honly)
  simpa using hboth

theorem of_suffix {ts ts' us : List Token} (h : Continues ts us) (hts : ts <:+ ts') : Continues ts' us := by
  obtain ⟨before', rfl⟩ := hts
  refine ⟨h.kind_ne, fun before honly => ?_⟩
  rw [← List.append_assoc] at honly ⊢
  exact h.initialises _ honly

end Continues

theorem terminated_closable {wanted : Expectation} {ts : List Token} {d : Diagnostic}
    (h : r.terminated wanted ts = .error d) (hd : d.fault.incomplete) :
    ∃ us, Plain us ∧ ∀ r' vs, r.Agrees r' → Passes (r'.terminated wanted (ts ++ (us ++ vs))) vs := by
  have hclosing : ∀ vs, Ends .expression (.ofKind .semicolon :: vs) :=
    fun vs => .cons (by rw [Token.ofKind_kind]; decide)
  -- either the expression or its terminator is missing
  obtain ⟨us, hus, hcloses⟩ : ∃ us, Plain us ∧ ∀ r' vs, r.Agrees r' →
      Passes (outcome (r'.expression (ts ++ (us ++ .ofKind .semicolon :: vs))))
        (.ofKind .semicolon :: vs) := by
    rw [terminated, bind_eq_error_iff] at h
    rcases h with he | ⟨⟨e, rest⟩, he, h⟩
    · obtain ⟨us, hus, hcloses⟩ := (readLevel_stops .expression he).closable hd
      exact ⟨us, hus, fun r' vs hr => hcloses r' _ hr (hclosing vs)⟩
    · have hrest : rest = [] := by
        rw [bind_eq_error_iff, outcome_terminator] at h
        rcases h with hstop | ⟨q, -, h⟩
        · cases rest with
          | nil => rfl
          | cons t more =>
              dsimp only at hstop
              split at hstop
              · cases hstop
              · split at hstop
                · cases hstop
                · cases hstop; cases hd
        · cases h
      subst hrest
      refine ⟨[], by simp [Plain], fun r' vs hr => Or.inl ⟨e, ?_⟩⟩
      exact readLevel_append hr.source .expression he (hclosing vs)
  refine ⟨us ++ [.ofKind .semicolon], hus.append (by simp [Plain]), fun r' vs hr => ?_⟩
  rw [terminated, List.append_assoc]
  refine (hcloses r' vs hr).bind fun e => Or.inl ⟨e, ?_⟩
  rw [outcome_terminator_of_semicolon rfl, bind_ok]

theorem initialised_closable {name : Token} {isMutable : Bool} {ts : List Token} {d : Diagnostic}
    (h : r.initialised name isMutable ts = .error d) (hd : d.fault.incomplete) :
    ∃ us, (∀ before, AfterName before → Continues (before ++ ts) us) ∧
      ∀ r' vs, r.Agrees r' → Passes (r'.initialised name isMutable (ts ++ (us ++ vs))) vs := by
  rw [initialised, bind_eq_error_iff] at h
  rcases h with hsign | ⟨⟨sign, rest⟩, hsign, h⟩
  · cases expect_incomplete hsign hd
    obtain ⟨d', herror, hd'⟩ := r.terminated_exhausted .semicolonAfterExpression
    obtain ⟨us, hus, hcloses⟩ := terminated_closable herror hd'
    refine ⟨.ofKind .equal :: us, fun before hbefore => ?_, fun r' vs hr => ?_⟩
    · rw [List.append_nil]
      exact .cons (by simp) (fun _ => hbefore) (.of_plain hus _)
    · rw [List.nil_append, List.cons_append, initialised,
        outcome_expect_of_kind (Token.ofKind_kind .equal), bind_ok]
      exact (hcloses r' vs hr).bind fun e => Or.inl ⟨_, rfl⟩
  · obtain ⟨rfl, hkind⟩ := expect_eq_ok hsign
    rw [bind_eq_error_iff] at h
    rcases h with hinit | ⟨p, -, h⟩
    · obtain ⟨us, hus, hcloses⟩ := terminated_closable hinit hd
      refine ⟨us, fun before _ => .of_plain hus _, fun r' vs hr => ?_⟩
      rw [List.cons_append, initialised, outcome_expect_of_kind hkind, bind_ok]
      exact (hcloses r' vs hr).bind fun e => Or.inl ⟨_, rfl⟩
    · cases h

/-- Behind its mark, or behind its keyword if it has no mark, a declaration has its name. -/
theorem exists_before_name {start : Token} (hstart : start.kind = .keyword .letKw) (ts : List Token) :
    ∃ before, start :: ts = before ++ (mutableMark ts).rest ∧
      ∀ name : Token, name.kind = .identifier → AfterName (before ++ [name]) := by
  rcases mutableMark_cases ts with ⟨mark, rest, rfl, hmark, -, hrest⟩ | ⟨-, hrest⟩
  · exact ⟨[start, mark], by rw [hrest]; rfl, fun name => .declareMutable [] hstart hmark⟩
  · exact ⟨[start], by rw [hrest]; rfl, fun name => .declare [] hstart⟩

theorem mutableMark_name {name : Token} (hname : name.kind = .identifier) (ts us : List Token) :
    (mutableMark (ts ++ name :: us)).tree = (mutableMark ts).tree ∧
      (mutableMark (ts ++ name :: us)).rest = (mutableMark ts).rest ++ name :: us := by
  cases ts with
  | nil => simp [mutableMark, hname]
  | cons t more => exact mutableMark_append (by simp) _

theorem declaration_closable {start : Token} (hstart : start.kind = .keyword .letKw) {ts : List Token}
    {d : Diagnostic} (h : outcome (r.declaration ts) = .error d) (hd : d.fault.incomplete) :
    ∃ us, Continues (start :: ts) us ∧
      ∀ r' vs, r.Agrees r' → Passes (outcome (r'.declaration (ts ++ (us ++ vs)))) vs := by
  obtain ⟨before, hbefore, hafter⟩ := exists_before_name hstart ts
  rw [outcome_declaration_eq, bind_eq_error_iff] at h
  rcases h with hname | ⟨⟨name, rest⟩, hname, h⟩
  · have hmark := expect_incomplete hname hd
    rw [hmark, List.append_nil] at hbefore
    have hwanting : r.initialised (.ofKind .identifier) (mutableMark ts).tree [] =
        .error (r.refuse .initializer []) := rfl
    obtain ⟨us, hus, hcloses⟩ := initialised_closable hwanting rfl
    refine ⟨.ofKind .identifier :: us, ?_, fun r' vs hr => ?_⟩
    · refine .cons (by simp) (by simp) ?_
      rw [hbefore]
      simpa using hus _ (hafter (.ofKind .identifier) rfl)
    · obtain ⟨htree, hrest⟩ := mutableMark_name (Token.ofKind_kind .identifier) ts (us ++ vs)
      rw [List.cons_append, outcome_declaration_eq, htree, hrest, hmark, List.nil_append,
        outcome_expect_of_kind (Token.ofKind_kind .identifier), bind_ok]
      exact hcloses r' vs hr
  · obtain ⟨hmark, hkind⟩ := expect_eq_ok hname
    obtain ⟨us, hus, hcloses⟩ := initialised_closable h hd
    have hne : ts ≠ [] := by
      rintro rfl
      cases hmark
    refine ⟨us, ?_, fun r' vs hr => ?_⟩
    · rw [hbefore, hmark]
      simpa using hus _ (hafter name hkind)
    · obtain ⟨htree, hrest⟩ := mutableMark_append hne (us ++ vs)
      rw [outcome_declaration_eq, htree, hrest, hmark, List.cons_append, outcome_expect_of_kind hkind,
        bind_ok]
      exact hcloses r' vs hr

/-- The tokens `us` close the blocks and the statement that are open after `ts`. -/
def ClosesBody (r : Reading) (ts us : List Token) : Prop :=
  ∀ r' vs, r.Agrees r' → Passes (outcome (r'.body (ts ++ (us ++ vs)))) vs

theorem statement_closable {t : Token} {more : List Token} {d : Diagnostic}
    (hbody : outcome (r.body more) = .error d → ∃ us, Continues more us ∧ ClosesBody r more us)
    (h : outcome (r.statement t more) = .error d) (hd : d.fault.incomplete) :
    ∃ us, Continues (t :: more) us ∧
      ∀ r' vs, r.Agrees r' → Passes (outcome (r'.statement t (more ++ (us ++ vs)))) vs := by
  simp only [outcome_statement] at h ⊢
  split at h
  · rename_i hlet
    simp only [hlet, ↓reduceIte]
    exact declaration_closable hlet h hd
  · rename_i hlet
    simp only [hlet, ↓reduceIte]
    split at h
    · rename_i hprintln
      simp only [hprintln, ↓reduceIte, outcome_printing_eq]
      rw [outcome_printing_eq, bind_eq_error_iff] at h
      rcases h with hvalue | ⟨p, -, h⟩
      · obtain ⟨us, hus, hcloses⟩ := terminated_closable hvalue hd
        exact ⟨us, .of_plain hus _, fun r' vs hr => (hcloses r' vs hr).bind fun e => Or.inl ⟨_, rfl⟩⟩
      · cases h
    · rename_i hprintln
      simp only [hprintln, ↓reduceIte]
      split at h
      · rename_i hbrace
        simp only [hbrace, ↓reduceIte]
        rw [bind_eq_error_iff] at h
        rcases h with hb | ⟨p, -, h⟩
        · obtain ⟨us, hus, hcloses⟩ := hbody hb
          refine ⟨us, hus.of_suffix (List.suffix_cons t more), fun r' vs hr => ?_⟩
          exact (hcloses r' vs hr).bind fun statements => Or.inl ⟨_, rfl⟩
        · cases h
      · rename_i hbrace
        simp only [hbrace, ↓reduceIte, outcome_evaluation_eq]
        rw [outcome_evaluation_eq, bind_eq_error_iff] at h
        rcases h with hvalue | ⟨p, -, h⟩
        · obtain ⟨us, hus, hcloses⟩ := terminated_closable hvalue hd
          exact ⟨us, .of_plain hus _, fun r' vs hr => (hcloses r' vs hr).bind fun e => Or.inl ⟨_, rfl⟩⟩
        · cases h

theorem body_closed (r : Reading) (vs : List Token) :
    outcome (r.body (.ofKind .rightBrace :: vs)) = .ok ([], vs) := by
  rw [outcome_body]
  simp

theorem body_closable {ts : List Token} {d : Diagnostic} (h : outcome (r.body ts) = .error d)
    (hd : d.fault.incomplete) : ∃ us, Continues ts us ∧ ClosesBody r ts us := by
  have hbrace : Plain [.ofKind .rightBrace] := by simp [Plain]
  obtain ⟨n, hn⟩ : ∃ n, ts.length = n := ⟨_, rfl⟩
  induction n using Nat.strongRecOn generalizing ts with
  | ind n ih =>
      cases ts with
      | nil => exact ⟨[.ofKind .rightBrace], .of_plain hbrace _, fun r' vs _ => Or.inl ⟨_, body_closed r' vs⟩⟩
      | cons t more =>
          simp only [List.length_cons] at hn
          rw [outcome_body] at h
          dsimp only at h
          split at h
          · cases h
          · rename_i hkind
            rw [bind_eq_error_iff] at h
            rcases h with hfirst | ⟨⟨first, rest⟩, hfirst, h⟩
            · have hbody := fun hb => ih more.length (by omega) hb rfl
              obtain ⟨us, hus, hcloses⟩ := statement_closable hbody hfirst hd
              refine ⟨us ++ [.ofKind .rightBrace], hus.append (.of_plain hbrace _), fun r' vs hr => ?_⟩
              rw [List.cons_append, outcome_body, List.append_assoc]
              dsimp only
              rw [if_neg hkind]
              refine (hcloses r' _ hr).bind fun first => Or.inl ⟨[first], ?_⟩
              simp only [List.singleton_append]
              rw [body_closed, bind_ok]
            · rw [bind_eq_error_iff] at h
              rcases h with hrest | ⟨q, -, h⟩
              · have hlt := length_lt_of_outcome hfirst
                have hsuffix := statement_suffix (fun _ _ => body_suffix) hfirst
                -- a brace goes on no statement, and neither does anything if tokens are left
                obtain ⟨us, hus, hseparate, hcloses⟩ : ∃ us, Continues rest us ∧
                    (∀ vs, rest ≠ [] ∨ Closing (us ++ vs)) ∧ ClosesBody r rest us := by
                  by_cases hnil : rest = []
                  · subst hnil
                    refine ⟨[.ofKind .rightBrace], .of_plain hbrace _, fun vs => Or.inr ?_, fun r' vs _ => ?_⟩
                    · exact ⟨.cons (by rw [Token.ofKind_kind]; decide), by simp⟩
                    · exact Or.inl ⟨_, body_closed r' vs⟩
                  · obtain ⟨us, hus, hcloses⟩ := ih rest.length (by omega) hrest rfl
                    exact ⟨us, hus, fun _ => Or.inl hnil, hcloses⟩
                refine ⟨us, hus.of_suffix hsuffix, fun r' vs hr => ?_⟩
                have hextends := statement_extends hr t more (us ++ vs) (body_extends hr more _)
                rw [List.cons_append, outcome_body]
                dsimp only
                rw [if_neg hkind, hextends.ok _ _ hfirst (hseparate vs), bind_ok]
                exact (hcloses r' vs hr).bind fun others => Or.inl ⟨_, rfl⟩
              · cases h

theorem program_closable {ts : List Token} {d : Diagnostic} (h : r.program ts = .error d)
    (hd : d.fault.incomplete) :
    ∃ us, Continues ts us ∧ ∀ r', r.Agrees r' →
      (∃ statements, r'.program (ts ++ us) = .ok statements) ∨
        ∃ d', r'.program (ts ++ us) = .error d' ∧ d'.RefusesTarget := by
  obtain ⟨n, hn⟩ : ∃ n, ts.length = n := ⟨_, rfl⟩
  induction n using Nat.strongRecOn generalizing ts with
  | ind n ih =>
      rw [program_eq] at h
      cases ts with
      | nil => cases h
      | cons t more =>
          simp only [List.length_cons] at hn
          dsimp only at h
          rw [bind_eq_error_iff] at h
          rcases h with hfirst | ⟨⟨first, rest⟩, hfirst, h⟩
          · obtain ⟨us, hus, hcloses⟩ := statement_closable (fun hb => body_closable hb hd) hfirst hd
            refine ⟨us, hus, fun r' hr => ?_⟩
            have hpasses := hcloses r' [] hr
            rw [List.append_nil] at hpasses
            rw [List.cons_append, program_eq]
            dsimp only
            rcases hpasses with ⟨first, hok⟩ | ⟨d', herror, hd'⟩
            · rw [hok, bind_ok, program_eq]
              exact Or.inl ⟨[first], by split <;> rfl⟩
            · exact Or.inr ⟨d', by rw [herror, bind_error], hd'⟩
          · dsimp only at h
            split at h
            · cases h
            · rename_i hmode
              rw [bind_eq_error_iff] at h
              rcases h with hrest | ⟨others, -, h⟩
              · have hne : rest ≠ [] := by
                  rintro rfl
                  rw [program_eq] at hrest
                  cases hrest
                have hlt := length_lt_of_outcome hfirst
                have hsuffix := statement_suffix (fun _ _ => body_suffix) hfirst
                obtain ⟨us, hus, hcloses⟩ := ih rest.length (by omega) hrest rfl
                refine ⟨us, hus.of_suffix hsuffix, fun r' hr => ?_⟩
                have hextends := statement_extends hr t more us (body_extends hr more us)
                rw [List.cons_append, program_eq]
                dsimp only
                rw [hextends.ok _ _ hfirst (Or.inl hne), bind_ok]
                simp only [hr.mode, hmode, ↓reduceIte]
                rcases hcloses r' hr with ⟨others, hok⟩ | ⟨d', herror, hd'⟩
                · exact Or.inl ⟨_, by rw [hok, bind_ok]⟩
                · exact Or.inr ⟨d', by rw [herror, bind_error], hd'⟩
              · cases h

end Reading

/-! ## Sources -/

theorem scan_incomplete_iff (source text : Text) :
    (∃ d, Token.scan source text = .error d ∧ d.fault.incomplete) ↔
      (∃ d, Token.scan source text = .error d) ∧
        ∃ tokens, Token.scan source (text ++ [Lexical.quote]) = .ok tokens := by
  cases Lexical.scanned source text with
  | whole tokens hscan _ => simp [hscan]
  | dead hd hscan _ hquote => simp [hscan, hquote [], hd]
  | unclosed hd hscan _ hquote => simp [hscan, hquote, hd]

theorem parseTokens_eq_program (source : Text) (mode : Mode) {ts : List Token}
    (h : ∀ t ∈ ts, t.kind ≠ .endOfInput) :
    parseTokens source mode ts =
      Reading.program ⟨sourceOrDefault source, mode, Token.lastLine ts⟩ ts := by
  have hall : ts.takeWhile (·.kind ≠ .endOfInput) = ts := by simpa using takeWhile_tokens h []
  rw [parseTokens, hall]

/-- What fails for want of more has only stopped early. A text is such a source of tokens exactly if it
can be mended by a quotation mark. Tokens for which this is said of their statements can go on: to a source
that can be read or to one in which the target of an assignment is refused, and always to one that can be
read if no equals sign among them could assign. -/
theorem incomplete_means_stopped_early (source : Text) :
    (∀ text, (∃ d, Token.scan source text = .error d ∧ d.fault.incomplete) ↔
      (∃ d, Token.scan source text = .error d) ∧
        ∃ tokens, Token.scan source (text ++ [Lexical.quote]) = .ok tokens) ∧
    ∀ (mode : Mode) (ts : List Token), (∀ t ∈ ts, t.kind ≠ .endOfInput) →
      ∀ d, parseTokens source mode ts = .error d → d.fault.incomplete →
        (∃ us, (∀ t ∈ us, t.kind ≠ .endOfInput) ∧
          ((∃ statements, parseTokens source mode (ts ++ us) = .ok statements) ∨
            ∃ d', parseTokens source mode (ts ++ us) = .error d' ∧ d'.RefusesTarget)) ∧
        (OnlyInitialises ts → ∃ us, (∀ t ∈ us, t.kind ≠ .endOfInput) ∧
          ∃ statements, parseTokens source mode (ts ++ us) = .ok statements) := by
  refine ⟨scan_incomplete_iff source, fun mode ts hts d h hd => ?_⟩
  rw [parseTokens_eq_program source mode hts] at h
  obtain ⟨us, hus, hcloses⟩ := Reading.program_closable h hd
  have hkinds : ∀ t ∈ ts ++ us, t.kind ≠ .endOfInput := List.forall_mem_append.2 ⟨hts, hus.kind_ne⟩
  have hpasses := hcloses ⟨sourceOrDefault source, mode, Token.lastLine (ts ++ us)⟩ ⟨rfl, rfl⟩
  rw [← parseTokens_eq_program source mode hkinds] at hpasses
  refine ⟨⟨us, hus.kind_ne, hpasses⟩, fun honly => ⟨us, hus.kind_ne, ?_⟩⟩
  rcases hpasses with hok | ⟨d', herror, hd'⟩
  · exact hok
  · rw [parseTokens_eq_program source mode hkinds] at herror
    exact absurd (hus.initialises [] honly) (Reading.program_shows _ _ herror hd').not_onlyInitialises

/-- A string that has not been closed, and a block with a declaration that has stopped at its mark: no equals
sign has come yet. -/
theorem incomplete_means_stopped_early_declaration :
    let text := Text.ofString "println \"a"
    let ts := [Token.ofKind .leftBrace, .ofKind (.keyword .letKw), .ofKind (.keyword .mutKw)]
    (∃ d, Token.scan [] text = .error d ∧ d.fault.incomplete) ∧
      (∃ tokens, Token.scan [] (text ++ [Lexical.quote]) = .ok tokens) ∧
      (∀ t ∈ ts, t.kind ≠ .endOfInput) ∧ OnlyInitialises ts ∧
      ∃ d, parseTokens [] .prompt ts = .error d ∧ d.fault.incomplete ∧
        d.fault.reason = Text.ofString "Expect identifier after let at end" ∧
        ∃ us, (∀ t ∈ us, t.kind ≠ .endOfInput) ∧
          ∃ statements, parseTokens [] .prompt (ts ++ us) = .ok statements := by
  intro text ts
  have hunclosed : reason? (Token.scan [] text) = some (Text.ofString "Unterminated string", true) := by
    decide +kernel
  obtain ⟨d', hscan, -, hd'⟩ := exists_of_reason? hunclosed
  have hopen : ∃ d, Token.scan [] text = .error d ∧ d.fault.incomplete := ⟨d', hscan, hd'⟩
  have hkinds : ∀ t ∈ ts, t.kind ≠ .endOfInput := by decide
  have hequal : ∀ t ∈ ts, t.kind ≠ .equal := by decide
  have honly : OnlyInitialises ts :=
    fun before sign after heq hsign => absurd hsign (hequal sign (by simp [heq]))
  have hended : reason? (parseTokens [] .prompt ts) =
      some (Text.ofString "Expect identifier after let at end", true) := by decide +kernel
  obtain ⟨d, hfail, hreason, hd⟩ := exists_of_reason? hended
  exact ⟨hopen, (((incomplete_means_stopped_early []).1 text).1 hopen).2, hkinds, honly, d, hfail, hd, hreason,
    ((incomplete_means_stopped_early []).2 .prompt ts hkinds d hfail hd).2 honly⟩

end LetScript
