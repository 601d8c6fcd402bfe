import Mathlib.Data.List.Basic
import LetScript.Proofs.Syntax.Finality

/-!
# Refused targets in the tokens

The target of an assignment is checked when its right side has been read. If it is refused, then the tokens
show it: an equals sign stands behind an expression that is no name, so it does not follow the name of a
declaration.
-/

namespace LetScript

open Grammar Phrase

/-! ## Where equals signs stand -/

/-- The tokens end with the name of a declaration. -/
inductive AfterName : List Token → Prop
  | declare {start name : Token} (before : List Token) :
      start.kind = .keyword .letKw → name.kind = .identifier → AfterName (before ++ [start, name])
  | declareMutable {start mark name : Token} (before : List Token) :
      start.kind = .keyword .letKw → mark.kind = .keyword .mutKw → name.kind = .identifier →
      AfterName (before ++ [start, mark, name])

/-- Every equals sign directly follows the name of a declaration. -/
def OnlyInitialises (ts : List Token) : Prop :=
  ∀ before sign after, ts = before ++ sign :: after → sign.kind = .equal → AfterName before

theorem AfterName.prepend {ts : List Token} (h : AfterName ts) (before : List Token) :
    AfterName (before ++ ts) := by
  cases h with
  | declare before' hstart hname =>
      rw [← List.append_assoc]
      exact .declare _ hstart hname
  | declareMutable before' hstart hmark hname =>
      rw [← List.append_assoc]
      exact .declareMutable _ hstart hmark hname

/-- The name of a declaration follows one of its keywords. -/
theorem AfterName.keyword {before : List Token} {t name : Token} (h : AfterName (before ++ [t, name])) :
    t.kind = .keyword .letKw ∨ t.kind = .keyword .mutKw := by
  generalize hts : before ++ [t, name] = ts at h
  cases h with
  | declare before' hstart hname =>
      obtain ⟨-, heq⟩ := List.append_inj' hts rfl
      cases heq
      exact Or.inl hstart
  | @declareMutable start mark name' before' hstart hmark hname =>
      have hts' : before ++ [t, name] = (before' ++ [start]) ++ [mark, name'] := by simpa using hts
      obtain ⟨-, heq⟩ := List.append_inj' hts' rfl
      cases heq
      exact Or.inr hmark

theorem AfterName.name {before : List Token} {name : Token} (h : AfterName (before ++ [name])) :
    name.kind = .identifier := by
  generalize hts : before ++ [name] = ts at h
  cases h with
  | @declare start name' before' hstart hname =>
      have hts' : before ++ [name] = (before' ++ [start]) ++ [name'] := by simpa using hts
      obtain ⟨-, heq⟩ := List.append_inj' hts' rfl
      cases heq
      exact hname
  | @declareMutable start mark name' before' hstart hmark hname =>
      have hts' : before ++ [name] = (before' ++ [start, mark]) ++ [name'] := by simpa using hts
      obtain ⟨-, heq⟩ := List.append_inj' hts' rfl
      cases heq
      exact hname

theorem OnlyInitialises.snoc {ts : List Token} {t : Token} (h : OnlyInitialises ts)
    (ht : t.kind = .equal → AfterName ts) : OnlyInitialises (ts ++ [t]) := by
  intro before sign after heq hsign
  rcases List.eq_nil_or_concat' after with rfl | ⟨after', last, rfl⟩
  · obtain ⟨rfl, hlast⟩ := List.append_inj' heq rfl
    cases hlast
    exact ht hsign
  · rw [← List.cons_append, ← List.append_assoc] at heq
    obtain ⟨rfl, -⟩ := List.append_inj' heq rfl
    exact h before sign after' rfl hsign

/-- The keywords of a declaration are in no expression. -/
theorem Grammar.Spells.kind_ne {source : Text} {level : Level} {ts : List Token} {e : Expr}
    (h : Spells source level ts e) :
    ∀ t ∈ ts, t.kind ≠ .keyword .letKw ∧ t.kind ≠ .keyword .mutKw := by
  have hoperators : ∀ l, ∀ kind ∈ operators l, kind ≠ .keyword .letKw ∧ kind ≠ .keyword .mutKw := by
    intro l
    cases l <;> decide
  have hsigns : ∀ kind ∈ signs, kind ≠ .keyword .letKw ∧ kind ≠ .keyword .mutKw := by decide
  have hliterals : ∀ kind ∈ literals, kind ≠ .keyword .letKw ∧ kind ≠ .keyword .mutKw := by decide
  induction h with
  | assign hname hsign _ ih => simp_all
  | equality _ ih => exact ih
  | operand _ ih => exact ih
  | @binary l op ts ts' left right _ hop _ ihl ihr =>
      intro t ht
      rcases List.mem_append.1 ht with ht | ht
      · exact ihl t ht
      · rcases List.mem_cons.1 ht with rfl | ht
        · exact hoperators l _ hop
        · exact ihr t ht
  | unary hop _ ih =>
      intro t ht
      rcases List.mem_cons.1 ht with rfl | ht
      · exact hsigns _ hop
      · exact ih t ht
  | primary _ ih => exact ih
  | literal ht => simpa using hliterals _ ht
  | reference ht => simp [ht]
  | group ho _ hc ih =>
      intro t ht
      rcases List.mem_append.1 ht with ht | ht
      · rcases List.mem_cons.1 ht with rfl | ht
        · simp [ho]
        · exact ih t ht
      · rw [List.mem_singleton.1 ht]
        simp [hc]

/-- A name alone spells nothing but itself. -/
theorem Grammar.Spells.of_name {source : Text} {level : Level} {ts : List Token} {e : Expr}
    (h : Spells source level ts e) {name : Token} (hts : ts = [name]) (hname : name.kind = .identifier) :
    e = .reference (anchor source name) name := by
  induction h with
  | equality _ ih => exact ih hts
  | operand _ ih => exact ih hts
  | primary _ ih => exact ih hts
  | reference => cases hts; rfl
  | literal ht =>
      cases hts
      rw [hname] at ht
      exact absurd ht (by decide)
  | assign => cases hts
  | binary hleft =>
      obtain ⟨t, more, rfl, -⟩ := hleft.starts
      simp at hts
  | unary _ hoperand =>
      obtain ⟨t, more, rfl, -⟩ := hoperand.starts
      cases hts
  | group => simp at hts

/-- The tokens hold an equals sign behind an expression that is no name. -/
def HoldsRefusal (source : Text) (ts : List Token) : Prop :=
  ∃ before used left sign after, ts = before ++ used ++ sign :: after ∧ sign.kind = .equal ∧
    Spells source (.layer .equality) used left ∧ ∀ context name, left ≠ .reference context name

theorem HoldsRefusal.of_suffix {source : Text} {ts ts' : List Token} (h : HoldsRefusal source ts)
    (hts : ts <:+ ts') : HoldsRefusal source ts' := by
  obtain ⟨before, used, left, sign, after, rfl, h⟩ := h
  obtain ⟨more, rfl⟩ := hts
  exact ⟨more ++ before, used, left, sign, after, by simp, h⟩

theorem HoldsRefusal.not_onlyInitialises {source : Text} {ts : List Token} (h : HoldsRefusal source ts) :
    ¬ OnlyInitialises ts := by
  obtain ⟨before, used, left, sign, after, rfl, hsign, hs, hleft⟩ := h
  intro honly
  have hafter := honly _ _ _ rfl hsign
  -- before the name of a declaration there is a keyword, and no expression holds one: it is the name alone
  rcases List.eq_nil_or_concat' used with rfl | ⟨used', name, rfl⟩
  · obtain ⟨t, more, hnil, -⟩ := hs.starts
    cases hnil
  · rw [← List.append_assoc] at hafter
    have hname := hafter.name
    rcases List.eq_nil_or_concat' used' with rfl | ⟨used'', t, rfl⟩
    · exact hleft _ _ (hs.of_name rfl hname)
    · have hkeyword : t.kind = .keyword .letKw ∨ t.kind = .keyword .mutKw := by
        have hends : AfterName ((before ++ used'') ++ [t, name]) := by simpa using hafter
        exact hends.keyword
      obtain ⟨hlet, hmut⟩ := hs.kind_ne t (by simp)
      exact hkeyword.elim hlet hmut

namespace Reading

variable {r : Reading}

/-! ## Refused targets -/

theorem assignable_of_refusesTarget {wanted : Expectation} {ts : List Token}
    (h : (r.refuse wanted ts).RefusesTarget) : wanted = .assignable := by
  obtain ⟨lexeme, h⟩ := h
  cases ts with
  | nil => cases h
  | cons t more => cases h; rfl

theorem expect_not_refusesTarget {kind : Token.Kind} {wanted : Expectation} {ts : List Token}
    {d : Diagnostic} (hwanted : wanted ≠ .assignable) (h : outcome (r.expect kind wanted ts) = .error d) :
    ¬ d.RefusesTarget := by
  intro hd
  rw [(expect_eq_error h).1] at hd
  exact hwanted (assignable_of_refusesTarget hd)

theorem Stops.holdsRefusal {level : Level} {ts : List Token} {d : Diagnostic} (h : Stops r level ts d)
    (hd : d.RefusesTarget) : HoldsRefusal r.source ts := by
  induction h with
  | start => cases assignable_of_refusesTarget hd
  | @inner opening more d _ _ ih => exact (ih hd).of_suffix (List.suffix_cons opening more)
  | closing => cases assignable_of_refusesTarget hd
  | @unary op more d _ _ ih => exact (ih hd).of_suffix (List.suffix_cons op more)
  | primary _ _ ih => exact ih hd
  | operand _ ih => exact ih hd
  | @right l used more left op d _ _ _ ih => exact (ih hd).of_suffix ⟨used ++ [op], by simp⟩
  | equality _ ih => exact ih hd
  | @value used more left sign d _ _ _ ih => exact (ih hd).of_suffix ⟨used ++ [sign], by simp⟩
  | @target used used' rest left value sign hs hleft hsign =>
      exact ⟨[], used, left, sign, used' ++ rest, by simp, hsign, hs, hleft⟩

/-! ## Statements -/

theorem terminator_suffix {wanted : Expectation} {ts rest : List Token} {u : Unit}
    (h : outcome (r.terminator wanted ts) = .ok (u, rest)) : rest <:+ ts := by
  rw [outcome_terminator] at h
  cases ts with
  | nil =>
      dsimp only at h
      split at h
      · cases h; exact List.suffix_rfl
      · cases h
  | cons t more =>
      dsimp only at h
      split at h
      · cases h; exact List.suffix_cons t rest
      · split at h
        · cases h; exact List.suffix_rfl
        · cases h

theorem terminated_suffix {wanted : Expectation} {ts rest : List Token} {e : Expr}
    (h : r.terminated wanted ts = .ok (e, rest)) : rest <:+ ts := by
  rw [terminated, bind_eq_ok_iff] at h
  obtain ⟨⟨e', rest'⟩, he, h⟩ := h
  rw [bind_eq_ok_iff] at h
  obtain ⟨⟨u, rest''⟩, hu, h⟩ := h
  cases h
  obtain ⟨used, rfl, -⟩ := expression_spelled he
  exact (terminator_suffix hu).trans (List.suffix_append used rest')

theorem mutableMark_suffix (ts : List Token) : (mutableMark ts).rest <:+ ts := by
  rcases mutableMark_cases ts with ⟨mark, rest, rfl, -, -, hrest⟩ | ⟨-, hrest⟩
  · rw [hrest]
    exact List.suffix_cons mark rest
  · simp [hrest]

theorem declaration_suffix {ts rest : List Token} {s : Stmt}
    (h : outcome (r.declaration ts) = .ok (s, rest)) : rest <:+ ts := by
  rw [outcome_declaration_eq, bind_eq_ok_iff] at h
  obtain ⟨⟨name, rest₁⟩, hname, h⟩ := h
  rw [initialised, bind_eq_ok_iff] at h
  obtain ⟨⟨sign, rest₂⟩, hsign, h⟩ := h
  rw [bind_eq_ok_iff] at h
  obtain ⟨⟨init, rest₃⟩, hinit, h⟩ := h
  cases h
  obtain ⟨rfl, -⟩ := expect_eq_ok hsign
  obtain ⟨hmark, -⟩ := expect_eq_ok hname
  have hrest : rest₃ <:+ (mutableMark ts).rest := by
    rw [hmark]
    exact (terminated_suffix hinit).trans ⟨[name, sign], rfl⟩
  exact hrest.trans (mutableMark_suffix ts)

/-- A statement leaves the end of its tokens if the body that it may open does. -/
theorem statement_suffix {t : Token} {more rest : List Token} {s : Stmt}
    (hbody : ∀ statements rest, outcome (r.body more) = .ok (statements, rest) → rest <:+ more)
    (h : outcome (r.statement t more) = .ok (s, rest)) : rest <:+ t :: more := by
  have hmore : more <:+ t :: more := List.suffix_cons t more
  rw [outcome_statement] at h
  split at h
  · exact (declaration_suffix h).trans hmore
  · split at h
    · rw [outcome_printing_eq, bind_eq_ok_iff] at h
      obtain ⟨⟨value, rest'⟩, hvalue, h⟩ := h
      cases h
      exact (terminated_suffix hvalue).trans hmore
    · split at h
      · rw [bind_eq_ok_iff] at h
        obtain ⟨⟨statements, rest'⟩, hb, h⟩ := h
        cases h
        exact (hbody _ _ hb).trans hmore
      · rw [outcome_evaluation_eq, bind_eq_ok_iff] at h
        obtain ⟨⟨value, rest'⟩, hvalue, h⟩ := h
        cases h
        exact terminated_suffix hvalue

theorem body_suffix {ts rest : List Token} {statements : List Stmt}
    (h : outcome (r.body ts) = .ok (statements, rest)) : rest <:+ ts := by
  obtain ⟨n, hn⟩ : ∃ n, ts.length = n := ⟨_, rfl⟩
  induction n using Nat.strongRecOn generalizing ts statements rest with
  | ind n ih =>
      rw [outcome_body] at h
      cases ts with
      | nil => cases h
      | cons t more =>
          dsimp only at h
          simp only [List.length_cons] at hn
          split at h
          · cases h; exact List.suffix_cons t rest
          · rw [bind_eq_ok_iff] at h
            obtain ⟨⟨first, rest₁⟩, hfirst, h⟩ := h
            rw [bind_eq_ok_iff] at h
            obtain ⟨⟨others, rest₂⟩, hothers, h⟩ := h
            cases h
            have hlt := length_lt_of_outcome hfirst
            have hsuffix := statement_suffix (fun _ _ hb => ih more.length (by omega) hb rfl) hfirst
            exact (ih rest₁.length (by omega) hothers rfl).trans hsuffix

/-- If the reader refuses a target, the tokens hold it. -/
def Shows {α : Type} (r : Reading) (ts : List Token) (x : Except Diagnostic α) : Prop :=
  ∀ d, x = .error d → d.RefusesTarget → HoldsRefusal r.source ts

theorem Shows.bind {α β : Type} {ts : List Token} {x : Except Diagnostic α} {f : α → Except Diagnostic β}
    (h : Shows r ts x) (hf : ∀ a, x = .ok a → Shows r ts (f a)) : Shows r ts (x.bind f) := by
  intro d hx hd
  rcases bind_eq_error_iff.1 hx with hx | ⟨a, hx, hfx⟩
  · exact h d hx hd
  · exact hf a hx d hfx hd

theorem Shows.of_suffix {α : Type} {ts ts' : List Token} {x : Except Diagnostic α} (h : Shows r ts x)
    (hts : ts <:+ ts') : Shows r ts' x :=
  fun d hx hd => (h d hx hd).of_suffix hts

theorem Shows.ok {α : Type} (ts : List Token) (a : α) : Shows r ts (.ok a) := by
  intro d h
  cases h

theorem terminator_shows {wanted : Expectation} (hwanted : wanted ≠ .assignable) (ts rest : List Token) :
    Shows r ts (outcome (r.terminator wanted rest)) := by
  intro d h hd
  rw [outcome_terminator] at h
  cases rest with
  | nil =>
      dsimp only at h
      split at h
      · cases h
      · cases h; exact absurd (assignable_of_refusesTarget hd) hwanted
  | cons t more =>
      dsimp only at h
      split at h
      · cases h
      · split at h
        · cases h
        · cases h; exact absurd (assignable_of_refusesTarget hd) hwanted

theorem terminated_shows {wanted : Expectation} (hwanted : wanted ≠ .assignable) (ts : List Token) :
    Shows r ts (r.terminated wanted ts) := by
  have hexpression : Shows r ts (outcome (r.expression ts)) :=
    fun d h => (readLevel_stops .expression h).holdsRefusal
  refine hexpression.bind fun p _ => ?_
  exact (terminator_shows hwanted ts p.2).bind fun q _ => .ok ts _

theorem declaration_shows (ts : List Token) : Shows r ts (outcome (r.declaration ts)) := by
  rw [outcome_declaration_eq]
  have hexpect : ∀ kind wanted rest, wanted ≠ .assignable →
      Shows r ts (outcome (r.expect kind wanted rest)) :=
    fun kind wanted rest hwanted d h hd => absurd hd (expect_not_refusesTarget hwanted h)
  refine (hexpect _ _ _ (by decide)).bind fun p hname => ?_
  refine (hexpect _ _ _ (by decide)).bind fun q hsign => ?_
  have hsuffix : q.2 <:+ ts := by
    obtain ⟨hmark, -⟩ := expect_eq_ok hname
    obtain ⟨hrest, -⟩ := expect_eq_ok hsign
    refine List.IsSuffix.trans ?_ (mutableMark_suffix ts)
    rw [hmark, hrest]
    exact ⟨[p.1, q.1], rfl⟩
  refine ((terminated_shows (by decide) q.2).of_suffix hsuffix).bind fun e _ => .ok ts _

theorem statement_shows {t : Token} {more : List Token} (hbody : Shows r more (outcome (r.body more))) :
    Shows r (t :: more) (outcome (r.statement t more)) := by
  have hmore : more <:+ t :: more := List.suffix_cons t more
  rw [outcome_statement]
  split
  · exact (declaration_shows more).of_suffix hmore
  · split
    · rw [outcome_printing_eq]
      exact ((terminated_shows (by decide) more).of_suffix hmore).bind fun p _ => .ok _ _
    · split
      · exact (hbody.of_suffix hmore).bind fun p _ => .ok _ _
      · rw [outcome_evaluation_eq]
        exact (terminated_shows (by decide) (t :: more)).bind fun p _ => .ok _ _

theorem body_shows (ts : List Token) : Shows r ts (outcome (r.body ts)) := by
  obtain ⟨n, hn⟩ : ∃ n, ts.length = n := ⟨_, rfl⟩
  induction n using Nat.strongRecOn generalizing ts with
  | ind n ih =>
      rw [outcome_body]
      cases ts with
      | nil =>
          intro d h hd
          cases h
          cases assignable_of_refusesTarget hd
      | cons t more =>
          dsimp only
          simp only [List.length_cons] at hn
          split
          · exact .ok _ _
          · refine (statement_shows (ih more.length (by omega) more rfl)).bind fun p hfirst => ?_
            have hlt := length_lt_of_outcome hfirst
            have hsuffix := statement_suffix (fun _ _ => body_suffix) hfirst
            exact ((ih p.2.length (by omega) p.2 rfl).of_suffix hsuffix).bind fun q _ => .ok _ _

theorem program_shows (ts : List Token) : Shows r ts (r.program ts) := by
  obtain ⟨n, hn⟩ : ∃ n, ts.length = n := ⟨_, rfl⟩
  induction n using Nat.strongRecOn generalizing ts with
  | ind n ih =>
      rw [program_eq]
      cases ts with
      | nil => exact .ok _ _
      | cons t more =>
          dsimp only
          simp only [List.length_cons] at hn
          refine (statement_shows (body_shows more)).bind fun p hfirst => ?_
          split
          · exact .ok _ _
          · have hlt := length_lt_of_outcome hfirst
            have hsuffix := statement_suffix (fun _ _ => body_suffix) hfirst
            exact ((ih p.2.length (by omega) p.2 rfl).of_suffix hsuffix).bind fun q _ => .ok _ _

end Reading

end LetScript
