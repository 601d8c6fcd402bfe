import LetScript.Proofs.Settings.Pairs
import LetScript.Settings.Decoder

/-!
# Documents over settings

Seen from one setting, the pairs of a document and of the mappings that it takes over are passed until one names
it, and those after that are passed as well (`Course`). From this, what every setting is after a document that
has been read without a complaint (`Overlays`).
-/

namespace LetScript

namespace Settings

open Yaml (Document Node Resolved resolveAs)

/-! ## One setting -/

/-- What pairs do to one setting: those that do not name it are passed, the first that names it is taken, and
those after it are passed. The flag tells whether the setting cannot be given any more. -/
inductive Course (d : Document) (f : Field) :
    List (Node × Node) → Bool → f.Carrier → Bool → f.Carrier → Prop
  | nil {t : Bool} {v : f.Carrier} : Course d f [] t v t v
  | skip {pair : Node × Node} {rest : List (Node × Node)} {t t' : Bool} {v v' : f.Carrier} :
      t ∨ ¬ Names d pair.1 f → Course d f rest t v t' v' → Course d f (pair :: rest) t v t' v'
  | take {pair : Node × Node} {rest : List (Node × Node)} {o : Option f.Carrier} {t' : Bool} {v v' : f.Carrier} :
      Names d pair.1 f → Offers d f pair.2 o → Course d f rest true (o.getD v) t' v' →
      Course d f (pair :: rest) false v t' v'

namespace Course

variable {d : Document} {f : Field} {pairs more : List (Node × Node)} {t t₁ t' : Bool} {v v₁ v' : f.Carrier}

theorem append (h : Course d f pairs t v t₁ v₁) (hmore : Course d f more t₁ v₁ t' v') :
    Course d f (pairs ++ more) t v t' v' := by
  induction h with
  | nil => exact hmore
  | skip hskip _ ih => exact .skip hskip (ih hmore)
  | take hnames hoffer _ ih => exact .take hnames hoffer (ih hmore)

theorem of_taken (h : Course d f pairs true v t' v') : t' = true ∧ v' = v := by
  generalize ht : true = t at h
  induction h with
  | nil => exact ⟨rfl, rfl⟩
  | skip _ _ ih => exact ih ht
  | take => cases ht

/-- A setting that no pair names stays as it is. -/
theorem of_unnamed (h : Course d f pairs t v t' v') (hno : ∀ pair ∈ pairs, ¬ Names d pair.1 f) :
    t' = t ∧ v' = v := by
  induction h with
  | nil => exact ⟨rfl, rfl⟩
  | skip _ _ ih => exact ih fun pair hmem => hno pair (List.mem_cons_of_mem _ hmem)
  | take hnames => exact absurd hnames (hno _ List.mem_cons_self)

/-- A setting has what the first pair that names it offers. -/
theorem of_first {before after : List (Node × Node)} {pair : Node × Node}
    (h : Course d f (before ++ pair :: after) false v t' v') (hno : ∀ p ∈ before, ¬ Names d p.1 f)
    (hpair : Names d pair.1 f) : t' = true ∧ ∃ o, Offers d f pair.2 o ∧ v' = o.getD v := by
  induction before with
  | nil =>
      cases h with
      | skip hskip _ => exact absurd hpair (hskip.resolve_left Bool.false_ne_true)
      | @take _ _ o _ _ _ _ hoffer hrest =>
          obtain ⟨ht, hv⟩ := hrest.of_taken
          exact ⟨ht, o, hoffer, hv⟩
  | cons head before ih =>
      rw [List.forall_mem_cons] at hno
      cases h with
      | skip _ hrest => exact ih hrest hno.2
      | take hnames => exact absurd hnames hno.1

/-- A setting has what a pair offers that names it, if no two of the pairs name one setting. -/
theorem of_apart {pair : Node × Node} (h : Course d f (pairs ++ more) false v t' v')
    (hapart : pairs.Pairwise (Apart d)) (hmem : pair ∈ pairs) (hpair : Names d pair.1 f) :
    ∃ o, Offers d f pair.2 o ∧ v' = o.getD v := by
  obtain ⟨before, after, rfl⟩ := List.append_of_mem hmem
  rw [List.append_assoc] at h
  refine (h.of_first (fun p hp hnames => ?_) hpair).2
  exact (List.pairwise_append.1 hapart).2.2 p hp pair List.mem_cons_self f hnames hpair

theorem taken_iff (h : Course d f pairs t v t' v') : t' = true ↔ t = true ∨ ∃ pair ∈ pairs, Names d pair.1 f := by
  induction h with
  | nil => simp
  | @skip pair rest t _ _ _ hskip _ ih =>
      simp only [ih, List.mem_cons, exists_eq_or_imp]
      constructor
      · rintro (ht | hrest)
        · exact .inl ht
        · exact .inr (.inr hrest)
      · rintro (ht | hhead | hrest)
        · exact .inl ht
        · exact .inl (hskip.resolve_right (not_not_intro hhead))
        · exact .inr hrest
  | take hnames _ hrest =>
      simp only [hrest.of_taken.1, true_iff]
      exact .inr ⟨_, List.mem_cons_self, hnames⟩

end Course

/-- Pairs that are taken one after the other take each setting its course. -/
theorem Steps.course {d : Document} {pairs : List (Node × Node)} {pass pass' : Pass} (h : Steps d pairs pass pass')
    (f : Field) :
    Course d f pairs (pass.taken f) (pass.progress.1.get f) (pass'.taken f) (pass'.progress.1.get f) := by
  induction h with
  | nil => exact .nil
  | @cons pair rest pass pass₁ pass' hstep _ ih =>
      cases hstep with
      | passed hpassed => exact .skip (.inr (not_names_of_passed hpassed)) ih
      | @known name hkey hknown =>
          refine .skip ?_ ih
          by_cases hnames : Names d pair.1 f
          · left
            obtain rfl : name = f.name := by simpa [hkey] using hnames.2
            simp only [Pass.taken, counts, hknown, Bool.or_true]
          · exact .inr hnames
      | @field g o hnames hfree hoffer =>
          by_cases hfg : f = g
          · subst hfg
            rw [hfree]
            refine .take hnames hoffer ?_
            simpa [Pass.taken] using ih
          · refine .skip (.inr fun hf => hfg (hf.unique hnames)) ?_
            have hne : f.name ≠ g.name := fun heq => hfg (Field.name_inj heq)
            simpa [Pass.taken, counts, get_take_of_ne, hfg, hne, Option.any_map, Function.comp_def] using ih

/-! ## Documents -/

theorem resolve_name (withDates : Bool) (f : Field) : Yaml.resolve withDates f.name = .text f.name := by
  cases withDates <;> cases f <;> rfl

/-- The name of a setting spells nothing but a text. -/
theorem resolveAs_name {tag : Text} {f : Field} {r : Resolved} (h : resolveAs tag f.name = .ok r) :
    ∃ t, r = .text t := by
  unfold resolveAs Yaml.resolveKind at h
  simp only [resolve_name] at h
  repeat' split at h
  all_goals cases h
  all_goals exact ⟨_, rfl⟩

theorem names_iff {d : Document} {key : Node} {f : Field} :
    Names d key f ↔ ∃ line tag text, d.follow key = .scalar line tag text ∧
      resolveAs tag text = .ok (.text f.name) := by
  constructor
  · rintro ⟨-, hkey⟩
    unfold keyName at hkey
    simp only [bind, Except.bind, pure, Except.pure] at hkey
    split at hkey
    · rename_i line tag text hfollow
      refine ⟨line, tag, text, hfollow, ?_⟩
      split at hkey
      · cases hkey
      · rename_i r hresolve
        split at hkey
        · cases hkey
        · have hname : textOf r text = f.name := by simpa using hkey
          cases r with
          | text t =>
              obtain rfl : t = f.name := hname
              exact hresolve
          | _ =>
              obtain rfl : text = f.name := hname
              obtain ⟨t, ht⟩ := resolveAs_name hresolve
              cases ht
    · cases hkey
  · rintro ⟨line, tag, text, hfollow, hresolve⟩
    refine ⟨?_, by simp only [keyName, hfollow, hresolve]; rfl⟩
    cases key with
    | scalar line' tag' text' =>
        cases hfollow
        cases hmerge : (Node.scalar line tag text).isMerge with
        | false => rfl
        | true =>
            -- a merge key resolves to its own text, which is no name
            simp only [Node.isMerge, Bool.and_eq_true, decide_eq_true_eq] at hmerge
            obtain ⟨rfl, rfl⟩ := hmerge
            cases f <;> cases hresolve
    | _ => rfl

theorem mem_givenNames {d : Document} {pairs : List (Node × Node)} {f : Field} :
    f.name ∈ givenNames d pairs ↔ ∃ pair ∈ pairs, Names d pair.1 f := by
  simp only [givenNames, List.mem_filterMap, names_iff]
  refine exists_congr fun pair => and_congr_right fun _ => ?_
  constructor
  · intro h
    split at h
    · rename_i line tag text hfollow
      split at h
      · rename_i name hresolve
        cases h
        exact ⟨line, tag, text, hfollow, hresolve⟩
      · cases h
    · cases h
  · rintro ⟨line, tag, text, hfollow, hresolve⟩
    simp only [hfollow, hresolve]

/-- After the pairs of a mapping, the settings that cannot be given any more are those whose names count as given
for the mappings that it takes over. -/
theorem Steps.taken_eq {d : Document} {pairs : List (Node × Node)} {s : Settings} {names : Option (List Text)}
    {pass : Pass} (h : Steps d pairs ⟨(s, []), [], names⟩ pass) (f : Field) :
    pass.taken f = counts (pass.names.orElse fun _ => some (givenNames d pairs)) f := by
  cases names with
  | none =>
      have hnames : pass.names = none := h.names_eq_none rfl
      have htaken := (h.course f).taken_iff
      rw [Bool.eq_iff_iff, htaken, hnames]
      simp [Pass.taken, counts, mem_givenNames]
  | some names =>
      obtain ⟨hsome, hgiven⟩ := h.counts_of_given rfl (by simp)
      obtain ⟨names', hnames⟩ := Option.isSome_iff_exists.1 hsome
      have hor : (pass.names.orElse fun _ => some (givenNames d pairs)) = pass.names := by simp [hnames]
      rw [hor, Pass.taken, Bool.or_eq_right_iff_imp]
      exact fun hmem => hgiven f (by simpa using hmem)

/-- The pairs of a part; none, if it is no mapping. -/
def pairsIn (d : Document) (part : Node) : List (Node × Node) :=
  match d.follow part with
  | .mapping _ _ pairs => pairs
  | _ => []

/-- Pairs, and after them those of the mappings that they take over, each with those that it takes over in turn.
The first argument bounds the depth. -/
def spread (d : Document) : Nat → List (Node × Node) → List (Node × Node)
  | 0, _ => []
  | n + 1, pairs => pairs ++ (mergeParts pairs).flatMap fun part => spread d n (pairsIn d part)

/-- Takes over a part that stands under a merge key. -/
def takeOver (d : Document) (n : Nat) (active : List Nat) (state : State) (part : Node) :
    Except Yaml.Malformed State :=
  match part, d.follow part with
  | .reference _ place name _, .mapping _ _ inner =>
    if active.contains place then .error ⟨none, .cycle name⟩ else setMapping d n (place :: active) state inner
  | _, .mapping _ _ inner => setMapping d n active state inner
  | _, _ => .error ⟨none, .mergeKind⟩

theorem takeOver_eq_ok {d : Document} {n : Nat} {active : List Nat} {state state' : State} {part : Node}
    (h : takeOver d n active state part = .ok state') :
    ∃ active', setMapping d n active' state (pairsIn d part) = .ok state' := by
  unfold takeOver at h
  split at h
  · rename_i hfollow
    split at h
    · cases h
    · rw [pairsIn, hfollow]
      exact ⟨_, h⟩
  · rename_i hfollow
    rw [pairsIn, hfollow]
    exact ⟨_, h⟩
  · cases h

/-- A mapping that repeats a key is reported for that. Of any other, its own pairs are read before the parts that it
takes over. -/
theorem setMapping_cases {d : Document} {n : Nat} {active : List Nat} {progress : Progress} {state' : State}
    {names : Option (List Text)} {pairs : List (Node × Node)}
    (h : setMapping d (n + 1) active (progress, names) pairs = .ok state') :
    duplicates pairs ≠ [] ∧ state'.1 = report progress (duplicates pairs) ∨
    duplicates pairs = [] ∧ ∃ pass, pairs.foldlM (setPair d) ⟨progress, [], names⟩ = .ok pass ∧
      (mergeParts pairs).foldlM (takeOver d n active)
        (pass.progress, pass.names.orElse fun _ => some (givenNames d pairs)) = .ok state' := by
  unfold setMapping at h
  simp only [bind, Except.bind, pure, Except.pure] at h
  split at h
  · rename_i hrepeated
    cases h
    exact .inl ⟨hrepeated, rfl⟩
  · rename_i hrepeated
    split at h
    · cases h
    · rename_i pass hpass
      exact .inr ⟨not_not.1 hrepeated, pass, hpass, h⟩

/-- A mapping is read without a complaint exactly if it repeats no key, and then its own pairs are read before
the parts that it takes over. -/
theorem setMapping_iff {d : Document} {n : Nat} {active : List Nat} {s s' : Settings} {complaints : List Mismatch}
    {names names' : Option (List Text)} {pairs : List (Node × Node)} :
    setMapping d (n + 1) active ((s, complaints), names) pairs = .ok ((s', []), names') ↔
      duplicates pairs = [] ∧ ∃ pass, pairs.foldlM (setPair d) ⟨(s, complaints), [], names⟩ = .ok pass ∧
        (mergeParts pairs).foldlM (takeOver d n active)
          (pass.progress, pass.names.orElse fun _ => some (givenNames d pairs)) = .ok ((s', []), names') := by
  constructor
  · intro h
    rcases setMapping_cases h with ⟨hrepeated, hreport⟩ | hread
    · simp only [report, Prod.mk.injEq, List.nil_eq, List.append_eq_nil_iff] at hreport
      exact absurd hreport.2.2 hrepeated
    · exact hread
  · rintro ⟨hrepeated, pass, hpass, hmerge⟩
    unfold setMapping
    simp only [bind, Except.bind, pure, Except.pure]
    simp only [hrepeated, ne_eq, not_true_eq_false, ↓reduceIte, hpass]
    exact hmerge

theorem foldlM_course {d : Document} {f : Field} {merge : State → Node → Except Yaml.Malformed State}
    (behind : Node → List (Node × Node))
    (hmerge : ∀ {s s' : Settings} {complaints : List Mismatch} {names names' : Option (List Text)} {part : Node},
      merge ((s, complaints), names) part = .ok ((s', []), names') →
      complaints = [] ∧ Course d f (behind part) (counts names f) (s.get f) (counts names' f) (s'.get f))
    {parts : List Node} {s s' : Settings} {complaints : List Mismatch} {names names' : Option (List Text)}
    (h : parts.foldlM merge ((s, complaints), names) = .ok ((s', []), names')) :
    complaints = [] ∧
      Course d f (parts.flatMap behind) (counts names f) (s.get f) (counts names' f) (s'.get f) := by
  induction parts generalizing s complaints names with
  | nil =>
      cases h
      exact ⟨rfl, .nil⟩
  | cons part rest ih =>
      simp only [List.foldlM_cons, bind, Except.bind] at h
      split at h
      · cases h
      · rename_i state hpart
        obtain ⟨⟨s₁, complaints₁⟩, names₁⟩ := state
        obtain ⟨rfl, hrest⟩ := ih h
        obtain ⟨hfine, hhead⟩ := hmerge hpart
        exact ⟨hfine, hhead.append hrest⟩

/-- A mapping that is read without a complaint takes each setting its course, through the pairs that it takes over
as well. -/
theorem setMapping_course {d : Document} {n : Nat} {active : List Nat} {s s' : Settings}
    {complaints : List Mismatch} {names names' : Option (List Text)} {pairs : List (Node × Node)}
    (h : setMapping d n active ((s, complaints), names) pairs = .ok ((s', []), names')) (f : Field) :
    complaints = [] ∧
      Course d f (spread d n pairs) (counts names f) (s.get f) (counts names' f) (s'.get f) := by
  induction n generalizing active s complaints names s' names' pairs with
  | zero =>
      cases h
      exact ⟨rfl, .nil⟩
  | succ n ih =>
      obtain ⟨-, ⟨⟨s₁, complaints₁⟩, given, names₁⟩, hpass, hparts⟩ := setMapping_iff.1 h
      obtain ⟨rfl, hover⟩ := foldlM_course (fun part => spread d n (pairsIn d part))
        (fun hpart => ih (takeOver_eq_ok hpart).choose_spec) hparts
      obtain ⟨rfl, hsteps⟩ := foldlM_setPair_iff.1 ⟨hpass, rfl⟩
      have hown := hsteps.course f
      rw [hsteps.taken_eq f] at hown
      exact ⟨rfl, hown.append hover⟩

/-- The pairs of a document, and after them those that it takes over. -/
def pairsOf (d : Document) : List (Node × Node) := spread d ((d.extent + 2) * (d.extent + 2)) (pairsIn d d.root)

theorem pairsOf_eq_append (d : Document) : ∃ behind, pairsOf d = pairsIn d d.root ++ behind := by
  obtain ⟨n, hn⟩ : ∃ n, (d.extent + 2) * (d.extent + 2) = n + 1 := ⟨_, rfl⟩
  rw [pairsOf, hn]
  exact ⟨_, rfl⟩

theorem decode_mapping_iff {d : Document} {line : Nat} {tag : Text} {pairs : List (Node × Node)}
    (hroot : d.follow d.root = .mapping line tag pairs) {s : Settings} {progress : Progress} :
    decode s d = .ok progress ↔
      ∃ names, setMapping d ((d.extent + 2) * (d.extent + 2)) [] ((s, []), none) pairs = .ok (progress, names) := by
  unfold decode
  simp only [hroot, bind, Except.bind, pure, Except.pure]
  constructor
  · intro h
    split at h
    · cases h
    · rename_i state hset
      obtain ⟨progress, names⟩ := state
      cases h
      exact ⟨names, hset⟩
  · rintro ⟨names, hset⟩
    rw [hset]

/-- A document is no mapping and changes nothing, or its pairs are read. -/
theorem decode_cases {d : Document} {s : Settings} {progress : Progress} (h : decode s d = .ok progress) :
    pairsIn d d.root = [] ∧ progress.1 = s ∨
      ∃ names, setMapping d ((d.extent + 2) * (d.extent + 2)) [] ((s, []), none) (pairsIn d d.root) =
        .ok (progress, names) := by
  cases hroot : d.follow d.root with
  | mapping line tag pairs =>
      right
      rw [pairsIn, hroot]
      exact (decode_mapping_iff hroot).1 h
  | _ =>
      left
      unfold decode at h
      simp only [hroot, bind, Except.bind, pure, Except.pure] at h
      simp only [pairsIn, hroot, true_and]
      repeat' split at h
      all_goals cases h
      all_goals rfl

/-- A document that is read without a complaint takes each setting its course. -/
theorem decode_course {d : Document} {s s' : Settings} (h : decode s d = .ok (s', [])) (f : Field) :
    ∃ t, Course d f (pairsOf d) false (s.get f) t (s'.get f) := by
  rcases decode_cases h with ⟨hown, rfl⟩ | ⟨names, hset⟩
  · obtain ⟨n, hn⟩ : ∃ n, (d.extent + 2) * (d.extent + 2) = n + 1 := ⟨_, rfl⟩
    rw [pairsOf, hn, hown]
    exact ⟨_, .nil⟩
  · exact ⟨_, (setMapping_course hset f).2⟩

/-- The pairs of a document itself are taken one after the other, if it is read without a complaint. -/
theorem decode_steps {d : Document} {s s' : Settings} (h : decode s d = .ok (s', [])) :
    ∃ pass, Steps d (pairsIn d d.root) ⟨(s, []), [], none⟩ pass := by
  rcases decode_cases h with ⟨hown, -⟩ | ⟨names, hset⟩
  · rw [hown]
    exact ⟨_, .nil⟩
  · obtain ⟨n, hn⟩ : ∃ n, (d.extent + 2) * (d.extent + 2) = n + 1 := ⟨_, rfl⟩
    rw [hn] at hset
    obtain ⟨-, pass, hpass, hparts⟩ := setMapping_iff.1 hset
    have hfine : pass.progress.2 = [] := (foldlM_course (fun part => spread d n (pairsIn d part))
      (fun hpart => setMapping_course (takeOver_eq_ok hpart).choose_spec .prompt) hparts).1
    exact ⟨pass, (foldlM_setPair_iff.1 ⟨hpass, hfine⟩).2⟩

/-! ## Settings that a document does not name -/

theorem foldlM_keeps {σ α β ε : Type} {step : σ → α → Except ε σ} (view : σ → β) {items : List α}
    (hstep : ∀ a ∈ items, ∀ {s s'}, step s a = .ok s' → view s' = view s) {s s' : σ}
    (h : items.foldlM step s = .ok s') : view s' = view s := by
  induction items generalizing s with
  | nil =>
      cases h
      rfl
  | cons a rest ih =>
      simp only [List.foldlM_cons, bind, Except.bind] at h
      split at h
      · cases h
      · rename_i s₁ hhead
        rw [ih (fun b hb => hstep b (List.mem_cons_of_mem a hb)) h, hstep a List.mem_cons_self hhead]

theorem setField_untouched {d : Document} {f g : Field} {value : Node} {progress progress' : Progress}
    (h : setField d progress g value = .ok progress') (hfg : f ≠ g) : progress'.1.get f = progress.1.get f := by
  unfold setField at h
  simp only [bind, Except.bind, pure, Except.pure] at h
  split at h
  · rename_i line tag text hfollow
    split at h
    · cases h
    · rename_i r hresolve
      split at h
      · cases h
        rfl
      · rw [setScalar?_eq] at h
        cases hread : g.read? r text with
        | none =>
            rw [hread] at h
            cases h
            rfl
        | some v =>
            rw [hread] at h
            cases h
            exact get_put_of_ne _ hfg v
  · cases h
    rfl

theorem setPair_untouched {d : Document} {f : Field} {pair : Node × Node} {pass pass' : Pass}
    (h : setPair d pass pair = .ok pass') (hno : ¬ Names d pair.1 f) :
    pass'.progress.1.get f = pass.progress.1.get f := by
  unfold setPair at h
  simp only [bind, Except.bind, pure, Except.pure] at h
  split at h
  · cases h
    rfl
  · rename_i hmerge
    split at h
    · cases h
    · rename_i key hkey
      split at h
      · cases h
        rfl
      · rename_i name
        repeat' split at h
        all_goals cases h
        all_goals try rfl
        rename_i g hname _ _ progress hset
        refine setField_untouched hset fun hfg => hno ⟨by simpa using hmerge, ?_⟩
        rw [hkey, hfg, Field.ofName?_eq_some.1 hname]

/-- Whatever is wrong with a mapping, the settings stay as they are that neither it nor what it takes over names. -/
theorem setMapping_untouched {d : Document} {n : Nat} {active : List Nat} {state state' : State}
    {pairs : List (Node × Node)} {f : Field} (h : setMapping d n active state pairs = .ok state')
    (hno : ∀ pair ∈ spread d n pairs, ¬ Names d pair.1 f) : state'.1.1.get f = state.1.1.get f := by
  induction n generalizing active state state' pairs with
  | zero =>
      cases h
      rfl
  | succ n ih =>
      obtain ⟨progress, names⟩ := state
      simp only [spread, List.forall_mem_append, List.forall_mem_flatMap] at hno
      rcases setMapping_cases h with ⟨-, hreport⟩ | ⟨-, pass, hpass, hparts⟩
      · rw [hreport]
        rfl
      · have hown := foldlM_keeps (fun p => p.progress.1.get f)
          (fun pair hmem {_ _} hpair => setPair_untouched hpair (hno.1 pair hmem)) hpass
        have hover := foldlM_keeps (fun st => st.1.1.get f)
          (fun part hmem {_ _} hpart => ih (takeOver_eq_ok hpart).choose_spec (hno.2 part hmem)) hparts
        exact hover.trans hown

theorem decode_untouched {d : Document} {s s' : Settings} {complaints : List Mismatch} {f : Field}
    (h : decode s d = .ok (s', complaints)) (hno : ∀ pair ∈ pairsOf d, ¬ Names d pair.1 f) :
    s'.get f = s.get f := by
  rcases decode_cases h with ⟨-, rfl⟩ | ⟨names, hset⟩
  · rfl
  · exact setMapping_untouched hset hno

/-! ## Documents that are read without a complaint -/

/-- The settings `s'` are the document over the settings `s`. -/
structure Overlays (d : Document) (s s' : Settings) : Prop where
  /-- What the document does not name stays as it is. -/
  unnamed : ∀ f, (∀ pair ∈ pairsOf d, ¬ Names d pair.1 f) → s'.get f = s.get f
  /-- What the document itself names has the value that it gives, or stays as it is if that is a null. -/
  own : ∀ f, ∀ pair ∈ pairsIn d d.root, Names d pair.1 f → ∃ o, Offers d f pair.2 o ∧ s'.get f = o.getD (s.get f)
  /-- Of what is taken over, the first that names a setting counts, unless the document itself names it. -/
  first : ∀ f before pair after, pairsOf d = before ++ pair :: after → (∀ p ∈ before, ¬ Names d p.1 f) →
    Names d pair.1 f → ∃ o, Offers d f pair.2 o ∧ s'.get f = o.getD (s.get f)

/-- A document that is read without a complaint is laid over the settings. -/
theorem decode_overlays {d : Document} {s s' : Settings} (h : decode s d = .ok (s', [])) : Overlays d s s' where
  unnamed f hno := decode_untouched h hno
  own f pair hmem hpair := by
    obtain ⟨t, hcourse⟩ := decode_course h f
    obtain ⟨behind, hbehind⟩ := pairsOf_eq_append d
    rw [hbehind] at hcourse
    have hapart := ((exists_steps_iff rfl).1 (decode_steps h)).2
    exact hcourse.of_apart hapart hmem hpair
  first f before pair after hsplit hno hpair := by
    obtain ⟨t, hcourse⟩ := decode_course h f
    rw [hsplit] at hcourse
    exact (hcourse.of_first hno hpair).2

/-! ## Contents of files -/

theorem yaml_of_nothing {content : Text} (hparse : Yaml.parse content = .ok none) (s : Settings) :
    yaml content s = (s, .nothing) := by
  unfold yaml
  rw [hparse]

theorem yaml_of_document {content : Text} {d : Document} (hparse : Yaml.parse content = .ok (some d)) (s : Settings) :
    yaml content s =
      match decode s d with
      | .error why => (s, .malformed why)
      | .ok (read, []) => (read, .done)
      | .ok (read, m :: more) => (read, .mismatched (m :: more)) := by
  unfold yaml
  generalize Yaml.parse content = parsed at hparse
  subst hparse
  rfl

theorem yaml_eq_done {content : Text} {d : Document} (hparse : Yaml.parse content = .ok (some d)) {s s' : Settings} :
    yaml content s = (s', .done) ↔ decode s d = .ok (s', []) := by
  rw [yaml_of_document hparse]
  constructor
  · intro h
    split at h
    · cases h
    · rename_i hdecode
      cases h
      exact hdecode
    · cases h
  · intro h
    rw [h]

/-- Whatever comes of a document, the settings after it are those before it, or those of its reading. -/
theorem yaml_fst {content : Text} {d : Document} (hparse : Yaml.parse content = .ok (some d)) (s : Settings) :
    (yaml content s).1 = s ∨ ∃ complaints, decode s d = .ok ((yaml content s).1, complaints) := by
  rw [yaml_of_document hparse]
  cases decode s d with
  | error why => exact .inl rfl
  | ok progress =>
      obtain ⟨read, complaints⟩ := progress
      right
      cases complaints with
      | nil => exact ⟨[], rfl⟩
      | cons m more => exact ⟨m :: more, rfl⟩

end Settings

end LetScript
