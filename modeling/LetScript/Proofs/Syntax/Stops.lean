import LetScript.Proofs.Syntax.Complete

/-!
# Where expressions end and stop

Where the readers of expressions leave off. They end where an expression cannot go on. Where they fail, they
have stopped somewhere: behind what could be read there is a token that does not fit, or none. `Stops`
follows the grammar to this place, so that what is said about failures is said by induction on it.
-/

namespace LetScript

open Grammar Phrase

namespace Reading

variable {r : Reading}

/-! ## Ends -/

/-- Behind what the reader of a level makes of `n` tokens, nothing goes on an expression of the level. -/
def EndsAt (r : Reading) (level : Level) (n : Nat) : Prop :=
  ∀ ts e rest, ts.length = n → r.readLevel level ts = .ok (e, rest) → Ends level rest

theorem ends_layer {l : Layer} {rest : List Token} (hoperand : Ends (operandLevel l) rest)
    (h : ∀ t ∈ rest.head?, ¬ l.admits t.kind) : Ends (.layer l) rest := by
  intro t ht
  rw [continuers_layer, List.mem_append, ← Layer.admits_iff]
  rintro (hop | hop)
  · exact h t ht hop
  · exact hoperand t ht hop

theorem chain_ends {l : Layer} {n : Nat} (ih : ∀ m < n, EndsAt r (operandLevel l) m) {left : Expr}
    {ts : List Token} {e : Expr} {rest : List Token} (hn : ts.length ≤ n)
    (hts : Ends (operandLevel l) ts) (h : outcome (r.chain l left ts) = .ok (e, rest)) :
    Ends (.layer l) rest := by
  induction hk : ts.length using Nat.strongRecOn generalizing left ts with
  | ind k ihk =>
      rw [outcome_chain] at h
      cases ts with
      | nil => cases h; exact .nil
      | cons op more =>
          dsimp only at h
          split at h
          · rw [outcome_operand, bind_eq_ok_iff] at h
            obtain ⟨⟨right, more'⟩, ho, h⟩ := h
            simp only [List.length_cons] at hn hk
            have hmore := ih more.length (by omega) _ _ _ rfl ho
            obtain ⟨used, rfl, -⟩ := readLevel_sound ho
            simp only [List.length_append] at hn hk
            exact ihk more'.length (by omega) (by omega) hmore h rfl
          · rename_i hop
            cases h
            exact ends_layer hts fun t ht => by cases ht; exact hop

theorem layer_ends {l : Layer} {n : Nat} (ih : ∀ m < n, ∀ level, EndsAt r level m)
    (hoperand : EndsAt r (operandLevel l) n) : EndsAt r (.layer l) n := by
  intro ts e rest hn h
  rw [readLevel, outcome_layer, outcome_operand, bind_eq_ok_iff] at h
  obtain ⟨⟨left, more⟩, ho, h⟩ := h
  obtain ⟨used, rfl, -⟩ := readLevel_sound ho
  have hle : more.length ≤ n := by simp [← hn]
  exact chain_ends (fun m hm => ih m hm _) hle (hoperand _ _ _ hn ho) h

theorem equality_spelled {ts : List Token} {e : Expr} {rest : List Token}
    (h : outcome (r.layer .equality ts) = .ok (e, rest)) : Spelled r (.layer .equality) ts e rest :=
  readLevel_sound h

theorem expression_ends {n : Nat} (ih : ∀ m < n, ∀ level, EndsAt r level m)
    (hequality : EndsAt r (.layer .equality) n) : EndsAt r .expression n := by
  intro ts e rest hn h
  rw [readLevel, outcome_expression, bind_eq_ok_iff] at h
  obtain ⟨⟨left, more⟩, hl, h⟩ := h
  have hends := hequality _ _ _ hn hl
  obtain ⟨used, rfl, -⟩ := equality_spelled hl
  cases more with
  | nil => cases h; exact .nil
  | cons sign more =>
      dsimp only at h
      split at h
      · rw [bind_eq_ok_iff] at h
        obtain ⟨⟨value, rest'⟩, hv, h⟩ := h
        have hlt : more.length < n := by simp [← hn]; omega
        have hvalue := ih _ hlt .expression _ _ _ rfl hv
        cases left with
        | reference context name => cases h; exact hvalue
        | _ => cases h
      · rename_i hsign
        cases h
        refine .cons fun hc => ?_
        rcases List.mem_cons.1 hc with heq | hops
        · exact hsign heq
        · exact hends sign rfl hops

/-- The readers stop only where an expression of their level cannot go on. -/
theorem readLevel_ends (level : Level) {ts : List Token} {e : Expr} {rest : List Token}
    (h : r.readLevel level ts = .ok (e, rest)) : Ends level rest :=
  -- nothing goes on primary expressions and their signs
  Level.induct (P := EndsAt r) (fun _ _ _ _ _ _ _ _ _ => List.not_mem_nil)
    (fun _ _ _ _ _ _ _ _ _ _ => List.not_mem_nil) (fun _ _ => layer_ends) (fun _ => expression_ends)
    level ts.length ts e rest rfl h

/-! ## Steps

What the readers do behind the tokens with which an expression has started. -/

theorem readLevel_inner {opening : Token} (hopening : opening.kind = .leftParen) (more : List Token) :
    r.readLevel .primary (opening :: more) = (r.readLevel .expression more).bind fun (inner, rest) =>
      (outcome (r.expect .rightParen .closingParen rest)).bind fun (_, rest) =>
        .ok (.group (r.place opening) inner, rest) := by
  simp only [readLevel]
  rw [outcome_primary]
  simp [hopening, Token.Kind.isLiteral]

theorem readLevel_signed {op : Token} (hop : op.kind ∈ signs) (more : List Token) :
    r.readLevel .unary (op :: more) = (r.readLevel .unary more).bind fun (operand, rest) =>
      .ok (.unary (r.place op) op operand, rest) := by
  rw [readLevel, outcome_unary]
  simp [Token.Kind.isSign_iff.2 hop, readLevel]

theorem readLevel_unsigned {t : Token} (ht : t.kind ∉ signs) (more : List Token) :
    r.readLevel .unary (t :: more) = r.readLevel .primary (t :: more) := by
  rw [← Token.Kind.isSign_iff] at ht
  rw [readLevel, outcome_unary]
  simp [ht, readLevel]

theorem readLevel_right {l : Layer} {used : List Token} {left : Expr} {op : Token}
    (hs : Spells r.source (.layer l) used left) (hop : op.kind ∈ operators l) (more : List Token) :
    r.readLevel (.layer l) (used ++ op :: more) =
      (r.readLevel (operandLevel l) more).bind fun (right, rest) =>
        outcome (r.chain l (.binary (r.place op) op left right) rest) := by
  have hend : Ends (operandLevel l) (op :: more) := .cons (not_mem_continuers_operandLevel hop)
  rw [finds_of_spells hs _ hend, outcome_chain]
  simp only [Layer.admits_iff.2 hop, ↓reduceIte]
  rw [outcome_operand]

theorem readLevel_value {used : List Token} {left : Expr} {sign : Token}
    (hs : Spells r.source (.layer .equality) used left) (hsign : sign.kind = .equal) (more : List Token) :
    r.readLevel .expression (used ++ sign :: more) =
      (r.readLevel .expression more).bind fun (value, rest) =>
        match left with
        | .reference context name => .ok (.assign context name value, rest)
        | _ => .error (r.refuse .assignable (sign :: more)) := by
  have hend : Ends (.layer .equality) (sign :: more) := .cons (by rw [hsign]; decide)
  have hleft : outcome (r.layer .equality (used ++ sign :: more)) = .ok (left, sign :: more) :=
    (finds_of_spells hs).readLevel hend
  rw [readLevel, outcome_expression, hleft, bind_ok]
  simp only [hsign, ↓reduceIte]
  rfl

/-! ## Stops -/

/-- The tokens start with an expression of the level up to a place where it stops, for a reason. -/
inductive Stops (r : Reading) : Level → List Token → Diagnostic → Prop
  /-- Nothing starts there. -/
  | start {ts : List Token} :
      (∀ t ∈ ts.head?, t.kind ∉ literals ∧ t.kind ≠ .identifier ∧ t.kind ≠ .leftParen) →
      Stops r .primary ts (r.refuse .expression ts)
  | inner {opening : Token} {more : List Token} {d : Diagnostic} :
      opening.kind = .leftParen → Stops r .expression more d → Stops r .primary (opening :: more) d
  /-- The parenthesis is not closed. -/
  | closing {opening : Token} {used rest : List Token} {inner : Expr} :
      opening.kind = .leftParen → Spells r.source .expression used inner → Ends .expression rest →
      (∀ t ∈ rest.head?, t.kind ≠ .rightParen) →
      Stops r .primary (opening :: (used ++ rest)) (r.refuse .closingParen rest)
  | unary {op : Token} {more : List Token} {d : Diagnostic} :
      op.kind ∈ signs → Stops r .unary more d → Stops r .unary (op :: more) d
  | primary {ts : List Token} {d : Diagnostic} :
      (∀ t ∈ ts.head?, t.kind ∉ signs) → Stops r .primary ts d → Stops r .unary ts d
  | operand {l : Layer} {ts : List Token} {d : Diagnostic} :
      Stops r (operandLevel l) ts d → Stops r (.layer l) ts d
  /-- It stops behind an operator. -/
  | right {l : Layer} {used more : List Token} {left : Expr} {op : Token} {d : Diagnostic} :
      Spells r.source (.layer l) used left → op.kind ∈ operators l → Stops r (operandLevel l) more d →
      Stops r (.layer l) (used ++ op :: more) d
  | equality {ts : List Token} {d : Diagnostic} :
      Stops r (.layer .equality) ts d → Stops r .expression ts d
  /-- It stops in the right side of an assignment, whatever the target. -/
  | value {used more : List Token} {left : Expr} {sign : Token} {d : Diagnostic} :
      Spells r.source (.layer .equality) used left → sign.kind = .equal → Stops r .expression more d →
      Stops r .expression (used ++ sign :: more) d
  /-- The right side has been read, and the target is no name. -/
  | target {used used' rest : List Token} {left value : Expr} {sign : Token} :
      Spells r.source (.layer .equality) used left → (∀ context name, left ≠ .reference context name) →
      sign.kind = .equal → Spells r.source .expression used' value → Ends .expression rest →
      Stops r .expression (used ++ sign :: (used' ++ rest)) (r.refuse .assignable (sign :: (used' ++ rest)))

theorem bind_eq_error_iff {α β : Type} {x : Except Diagnostic α} {f : α → Except Diagnostic β}
    {d : Diagnostic} : x.bind f = .error d ↔ x = .error d ∨ ∃ a, x = .ok a ∧ f a = .error d := by
  cases x with
  | error d' => simp
  | ok a => simp

theorem expect_eq_error {kind : Token.Kind} {wanted : Expectation} {ts : List Token} {d : Diagnostic}
    (h : outcome (r.expect kind wanted ts) = .error d) :
    d = r.refuse wanted ts ∧ ∀ t ∈ ts.head?, t.kind ≠ kind := by
  rw [outcome_expect] at h
  cases ts with
  | nil => cases h; exact ⟨rfl, fun t ht => by cases ht⟩
  | cons t more =>
      dsimp only at h
      split at h
      · cases h
      · rename_i hkind
        cases h
        exact ⟨rfl, fun t' ht => by cases ht; exact hkind⟩

/-- Where the reader of a level fails on `n` tokens, they stop. -/
def StopsAt (r : Reading) (level : Level) (n : Nat) : Prop :=
  ∀ ts d, ts.length = n → r.readLevel level ts = .error d → Stops r level ts d

theorem primary_stops {n : Nat} (ih : ∀ m < n, ∀ level, StopsAt r level m) : StopsAt r .primary n := by
  intro ts d hn h
  cases ts with
  | nil => cases h; exact .start fun t ht => by cases ht
  | cons t more =>
      rw [readLevel, outcome_primary] at h
      split at h
      · cases h
      · rename_i hliteral
        rw [Token.Kind.isLiteral_iff] at hliteral
        split at h
        · cases h
        · rename_i hname
          split at h
          · rename_i hparen
            rw [bind_eq_error_iff] at h
            rcases h with hi | ⟨⟨inner, rest⟩, hi, h⟩
            · have hlt : more.length < n := by simp [← hn]
              exact .inner hparen (ih _ hlt .expression _ _ rfl hi)
            · rw [bind_eq_error_iff] at h
              rcases h with hc | ⟨a, -, h⟩
              · have hends := readLevel_ends .expression hi
                obtain ⟨used, rfl, hs⟩ := expression_spelled hi
                obtain ⟨rfl, hkind⟩ := expect_eq_error hc
                exact .closing hparen hs hends hkind
              · cases h
          · rename_i hparen
            cases h
            exact .start fun t' ht => by cases ht; exact ⟨hliteral, hname, hparen⟩

theorem unary_stops {n : Nat} (ih : ∀ m < n, ∀ level, StopsAt r level m)
    (hprimary : StopsAt r .primary n) : StopsAt r .unary n := by
  intro ts d hn h
  rw [readLevel, outcome_unary] at h
  cases ts with
  | nil => exact .primary (fun t ht => by cases ht) (hprimary [] d hn h)
  | cons t more =>
      dsimp only at h
      split at h
      · rename_i hsign
        rw [bind_eq_error_iff] at h
        rcases h with ho | ⟨a, -, h⟩
        · have hlt : more.length < n := by simp [← hn]
          exact .unary (Token.Kind.isSign_iff.1 hsign) (ih _ hlt .unary _ _ rfl ho)
        · cases h
      · rename_i hsign
        rw [Token.Kind.isSign_iff] at hsign
        exact .primary (fun t' ht => by cases ht; exact hsign) (hprimary _ _ hn h)

/-- A chain that fails stops behind one of its operators: the invariant is that what has been read of it
spells the tree so far. -/
theorem chain_stops {l : Layer} {n : Nat} (ih : ∀ m < n, StopsAt r (operandLevel l) m)
    {read : List Token} {left : Expr} {ts : List Token} {d : Diagnostic} (hn : ts.length ≤ n)
    (hleft : Spells r.source (.layer l) read left) (h : outcome (r.chain l left ts) = .error d) :
    Stops r (.layer l) (read ++ ts) d := by
  induction hk : ts.length using Nat.strongRecOn generalizing read left ts with
  | ind k ihk =>
      rw [outcome_chain] at h
      cases ts with
      | nil => cases h
      | cons op more =>
          dsimp only at h
          split at h
          · rename_i hop
            rw [Layer.admits_iff] at hop
            rw [outcome_operand, bind_eq_error_iff] at h
            simp only [List.length_cons] at hn hk
            rcases h with ho | ⟨⟨right, more'⟩, ho, h⟩
            · exact .right hleft hop (ih _ (by omega) _ _ rfl ho)
            · obtain ⟨used, rfl, hs⟩ := readLevel_sound ho
              simp only [List.length_append] at hn hk
              dsimp only at h
              have hlater := ihk more'.length (by omega) (by omega) (.binary hleft hop hs) h rfl
              simpa using hlater
          · cases h

theorem layer_stops {l : Layer} {n : Nat} (ih : ∀ m < n, ∀ level, StopsAt r level m)
    (hoperand : StopsAt r (operandLevel l) n) : StopsAt r (.layer l) n := by
  intro ts d hn h
  rw [readLevel, outcome_layer, outcome_operand, bind_eq_error_iff] at h
  rcases h with ho | ⟨⟨left, more⟩, ho, h⟩
  · exact .operand (hoperand _ _ hn ho)
  · obtain ⟨used, rfl, hs⟩ := readLevel_sound ho
    have hle : more.length ≤ n := by simp [← hn]
    exact chain_stops (fun m hm => ih m hm _) hle (.operand hs) h

theorem expression_stops {n : Nat} (ih : ∀ m < n, ∀ level, StopsAt r level m)
    (hequality : StopsAt r (.layer .equality) n) : StopsAt r .expression n := by
  intro ts d hn h
  rw [readLevel, outcome_expression, bind_eq_error_iff] at h
  rcases h with hl | ⟨⟨left, rest⟩, hl, h⟩
  · exact .equality (hequality _ _ hn hl)
  · obtain ⟨used, rfl, hs⟩ := equality_spelled hl
    cases rest with
    | nil => cases h
    | cons sign more =>
        dsimp only at h
        split at h
        · rename_i hsign
          rw [bind_eq_error_iff] at h
          rcases h with hv | ⟨⟨value, rest'⟩, hv, h⟩
          · have hlt : more.length < n := by simp [← hn]; omega
            exact .value hs hsign (ih _ hlt .expression _ _ rfl hv)
          · have hends := readLevel_ends .expression hv
            obtain ⟨used', rfl, hs'⟩ := expression_spelled hv
            cases left with
            | reference context name => cases h
            | _ =>
                cases h
                exact .target hs (fun _ _ heq => by cases heq) hsign hs' hends
        · cases h

/-- Where a reader fails, the tokens stop. -/
theorem readLevel_stops (level : Level) {ts : List Token} {d : Diagnostic}
    (h : r.readLevel level ts = .error d) : Stops r level ts d :=
  Level.induct (P := StopsAt r) (fun _ => primary_stops) (fun _ => unary_stops) (fun _ _ => layer_stops)
    (fun _ => expression_stops) level ts.length ts d rfl h

end Reading

end LetScript
