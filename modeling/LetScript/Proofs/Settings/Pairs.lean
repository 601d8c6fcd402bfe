import Mathlib.Data.List.Basic
import LetScript.Settings.Decode

/-!
# Pairs over settings

What the pairs of a mapping do to settings if nothing is wrong with them. One pair names a setting that can still
be given, and gives it a value, or leaves it as it is with a null (`Step`); a pair is read without a complaint
exactly if it takes such a step. So the pairs of a document that takes nothing over are read without a complaint
exactly if they are fine by themselves and name different settings, in whatever order they stand.
-/

namespace LetScript

namespace Settings

open Yaml (Document Node Resolved resolveAs)

/-! ## Settings one by one -/

/-- The values that a setting can have. -/
def Field.Carrier : Field → Type
  | .history => Bool
  | .maxEchoWidth => Int
  | .prompt | .continuationPrompt | .historyFile | .sourceName => Text

def get (s : Settings) : (f : Field) → f.Carrier
  | .prompt => s.prompt
  | .continuationPrompt => s.continuationPrompt
  | .history => s.history
  | .historyFile => s.historyFile
  | .sourceName => s.sourceName
  | .maxEchoWidth => s.maxEchoWidth

def put (s : Settings) : (f : Field) → f.Carrier → Settings
  | .prompt, v => { s with prompt := v }
  | .continuationPrompt, v => { s with continuationPrompt := v }
  | .history, v => { s with history := v }
  | .historyFile, v => { s with historyFile := v }
  | .sourceName, v => { s with sourceName := v }
  | .maxEchoWidth, v => { s with maxEchoWidth := v }

/-- The value that a scalar stands for where a setting is wanted: a text as it is written, a truth value, or a
whole number. -/
def Field.read? : (f : Field) → Resolved → Text → Option f.Carrier
  | .history, r, _ => boolOf? r
  | .maxEchoWidth, r, _ => intOf? r
  | .prompt, r, written => some (textOf r written)
  | .continuationPrompt, r, written => some (textOf r written)
  | .historyFile, r, written => some (textOf r written)
  | .sourceName, r, written => some (textOf r written)

@[simp] theorem get_put_self (s : Settings) (f : Field) (v : f.Carrier) : (s.put f v).get f = v := by
  cases f <;> rfl

theorem get_put_of_ne (s : Settings) {f g : Field} (h : g ≠ f) (v : f.Carrier) :
    (s.put f v).get g = s.get g := by
  cases f <;> cases g <;> first | rfl | exact absurd rfl h

theorem ext_get {s s' : Settings} (h : ∀ f, s.get f = s'.get f) : s = s' := by
  obtain ⟨⟩ := s
  obtain ⟨⟩ := s'
  simp only [mk.injEq]
  exact ⟨h .prompt, h .continuationPrompt, h .history, h .historyFile, h .sourceName, h .maxEchoWidth⟩

theorem setScalar?_eq (s : Settings) (f : Field) (r : Resolved) (written : Text) :
    s.setScalar? f r written = (f.read? r written).map (s.put f) := by
  cases f <;> rfl

/-! ## One pair -/

theorem Field.ofName?_name (f : Field) : Field.ofName? f.name = some f := by
  cases f <;> decide +kernel

theorem Field.ofName?_eq_some {name : Text} {f : Field} : Field.ofName? name = some f ↔ name = f.name := by
  constructor
  · intro h
    have hname : f.name = name := by simpa using List.find?_some h
    exact hname.symm
  · rintro rfl
    exact f.ofName?_name

theorem Field.name_inj {f g : Field} (h : f.name = g.name) : f = g := by
  have hfound := f.ofName?_name
  rw [h, g.ofName?_name] at hfound
  exact (Option.some.inj hfound).symm

/-- The key names the setting. -/
def Names (d : Document) (key : Node) (f : Field) : Prop :=
  key.isMerge = false ∧ keyName d key = .ok (.given f.name)

theorem Names.unique {d : Document} {key : Node} {f g : Field} (hf : Names d key f) (hg : Names d key g) :
    f = g := by
  have hkey := hf.2.symm.trans hg.2
  simp only [Except.ok.injEq, KeyName.given.injEq] at hkey
  exact Field.name_inj hkey

/-- What a value gives to a setting if it is of the right kind: a new value, or nothing if it is a null. -/
inductive Offers (d : Document) (f : Field) (value : Node) : Option f.Carrier → Prop
  | null {line : Nat} {tag text : Text} :
      d.follow value = .scalar line tag text → resolveAs tag text = .ok .null → Offers d f value none
  | scalar {line : Nat} {tag text : Text} {r : Resolved} {v : f.Carrier} :
      d.follow value = .scalar line tag text → resolveAs tag text = .ok r → r ≠ .null →
      f.read? r text = some v → Offers d f value (some v)
  /-- A reference is followed once. -/
  | reference {line place target : Nat} {name : Text} :
      d.follow value = .reference line place name target → Offers d f value none

theorem Offers.unique {d : Document} {f : Field} {value : Node} {o o' : Option f.Carrier}
    (h : Offers d f value o) (h' : Offers d f value o') : o = o' := by
  cases h with
  | null hfollow hresolve =>
      cases h' with
      | null | reference => rfl
      | scalar hfollow' hresolve' hr' =>
          cases hfollow.symm.trans hfollow'
          cases hresolve.symm.trans hresolve'
          exact absurd rfl hr'
  | scalar hfollow hresolve hr hread =>
      cases h' with
      | null hfollow' hresolve' =>
          cases hfollow.symm.trans hfollow'
          cases hresolve.symm.trans hresolve'
          exact absurd rfl hr
      | scalar hfollow' hresolve' _ hread' =>
          cases hfollow.symm.trans hfollow'
          cases hresolve.symm.trans hresolve'
          exact hread.symm.trans hread'
      | reference hfollow' => cases hfollow.symm.trans hfollow'
  | reference hfollow =>
      cases h' with
      | null | reference => rfl
      | scalar hfollow' => cases hfollow.symm.trans hfollow'

def take (s : Settings) (f : Field) : Option f.Carrier → Settings
  | none => s
  | some v => s.put f v

@[simp] theorem get_take_self (s : Settings) (f : Field) (o : Option f.Carrier) :
    (s.take f o).get f = o.getD (s.get f) := by
  cases o <;> simp [take]

theorem get_take_of_ne (s : Settings) {f g : Field} (h : g ≠ f) (o : Option f.Carrier) :
    (s.take f o).get g = s.get g := by
  cases o with
  | none => rfl
  | some v => exact get_put_of_ne s h v

theorem collectionMismatch_eq_nil {wanted : Text} {part : Node} (h : collectionMismatch wanted part = [])
    (hpart : ∀ line tag text, part ≠ .scalar line tag text) :
    ∃ line place name target, part = .reference line place name target := by
  cases part with
  | scalar line tag text => exact absurd rfl (hpart line tag text)
  | sequence => cases h
  | mapping line tag pairs =>
      simp only [collectionMismatch] at h
      split at h
      · cases h
      · contradiction
  | reference line place name target => exact ⟨line, place, name, target, rfl⟩

/-- A setting is given without a complaint exactly if the value is of the right kind. -/
theorem setField_iff {d : Document} {s s' : Settings} {complaints : List Mismatch} {f : Field} {value : Node} :
    setField d (s, complaints) f value = .ok (s', []) ↔
      complaints = [] ∧ ∃ o, Offers d f value o ∧ s' = s.take f o := by
  constructor
  · intro h
    unfold setField at h
    simp only [bind, Except.bind, pure, Except.pure] at h
    split at h
    · rename_i line tag text hfollow
      split at h
      · cases h
      · rename_i r hresolve
        split at h
        · cases h
          exact ⟨rfl, none, .null hfollow hresolve, rfl⟩
        · rename_i hr
          rw [setScalar?_eq] at h
          cases hread : f.read? r text with
          | none =>
              rw [hread] at h
              simp [report] at h
          | some v =>
              rw [hread] at h
              cases h
              exact ⟨rfl, some v, .scalar hfollow hresolve (fun heq => hr heq) hread, rfl⟩
    · rename_i hfollow
      simp only [report, Except.ok.injEq, Prod.mk.injEq, List.append_eq_nil_iff] at h
      obtain ⟨rfl, hcomplaints, hpart⟩ := h
      obtain ⟨line, place, name, target, hreference⟩ :=
        collectionMismatch_eq_nil hpart fun line tag text => hfollow line tag text
      exact ⟨hcomplaints, none, .reference hreference, rfl⟩
  · rintro ⟨rfl, o, hoffer, rfl⟩
    unfold setField
    simp only [bind, Except.bind, pure, Except.pure]
    cases hoffer with
    | null hfollow hresolve => simp only [hfollow, hresolve, take]
    | reference hfollow => rw [hfollow]; rfl
    | @scalar line tag text r v hfollow hresolve hr hread =>
        simp only [hfollow, hresolve, setScalar?_eq, hread]
        cases r <;> rfl

/-- Whether the name of a setting counts as given. -/
def counts (names : Option (List Text)) (f : Field) : Bool := names.any (·.contains f.name)

/-- Whether a setting cannot be given any more. -/
def Pass.taken (pass : Pass) (f : Field) : Bool := pass.given.contains f || counts pass.names f

/-- What one pair does if nothing is wrong with it. -/
inductive Step (d : Document) (pair : Node × Node) (pass : Pass) : Pass → Prop
  | passed : pair.1.isMerge ∨ keyName d pair.1 = .ok (.missing []) → Step d pair pass pass
  | known {name : Text} :
      keyName d pair.1 = .ok (.given name) → pass.names.any (·.contains name) → Step d pair pass pass
  | field {f : Field} {o : Option f.Carrier} :
      Names d pair.1 f → pass.taken f = false → Offers d f pair.2 o →
      Step d pair pass
        ⟨(pass.progress.1.take f o, pass.progress.2), f :: pass.given, pass.names.map (f.name :: ·)⟩

/-- A pair is read without a complaint exactly if it takes a step. -/
theorem setPair_iff {d : Document} {pair : Node × Node} {pass pass' : Pass} :
    (setPair d pass pair = .ok pass' ∧ pass'.progress.2 = []) ↔
      pass.progress.2 = [] ∧ Step d pair pass pass' := by
  obtain ⟨⟨s, complaints⟩, given, names⟩ := pass
  unfold setPair
  simp only [bind, Except.bind, pure, Except.pure]
  constructor
  · rintro ⟨h, hfine⟩
    split at h
    · rename_i hmerge
      cases h
      exact ⟨hfine, .passed (.inl hmerge)⟩
    · rename_i hmerge
      split at h
      · cases h
      · rename_i key hkey
        split at h
        · rename_i reasons
          cases h
          obtain ⟨rfl, rfl⟩ : complaints = [] ∧ reasons = [] := by simpa [report] using hfine
          exact ⟨rfl, .passed (.inr hkey)⟩
        · rename_i name
          split at h
          · rename_i hknown
            cases h
            exact ⟨hfine, .known hkey hknown⟩
          · rename_i hunknown
            split at h
            · cases h
              simp [report] at hfine
            · rename_i f hname
              obtain rfl := Field.ofName?_eq_some.1 hname
              split at h
              · cases h
                simp [report] at hfine
              · rename_i hgiven
                split at h
                · cases h
                · rename_i progress hset
                  cases h
                  obtain ⟨s', complaints'⟩ := progress
                  obtain rfl : complaints' = [] := hfine
                  obtain ⟨rfl, o, hoffer, rfl⟩ := setField_iff.1 hset
                  have hfree : (⟨(s, []), given, names⟩ : Pass).taken f = false := by
                    simp only [Pass.taken, counts, Bool.or_eq_false_iff]
                    exact ⟨by simpa using hgiven, by simpa using hunknown⟩
                  exact ⟨rfl, .field ⟨by simpa using hmerge, hkey⟩ hfree hoffer⟩
  · rintro ⟨rfl, hstep⟩
    cases hstep with
    | passed hpassed =>
        split
        · exact ⟨rfl, rfl⟩
        · rename_i hmerge
          rw [hpassed.resolve_left hmerge]
          exact ⟨rfl, rfl⟩
    | known hkey hknown =>
        split
        · exact ⟨rfl, rfl⟩
        · simp only [hkey, hknown, ↓reduceIte]
          exact ⟨trivial, trivial⟩
    | @field f o hnames hfree hoffer =>
        obtain ⟨hmerge, hkey⟩ := hnames
        obtain ⟨hgiven, hunknown⟩ := Bool.or_eq_false_iff.1 hfree
        have hset : setField d (s, []) f pair.2 = .ok (s.take f o, []) := setField_iff.2 ⟨rfl, o, hoffer, rfl⟩
        rw [counts] at hunknown
        simp only [hmerge, hkey, hunknown, Field.ofName?_name, hgiven, hset, Bool.false_eq_true, ↓reduceIte]
        exact ⟨trivial, trivial⟩

/-! ## All pairs -/

/-- What pairs do one after the other. -/
inductive Steps (d : Document) : List (Node × Node) → Pass → Pass → Prop
  | nil {pass : Pass} : Steps d [] pass pass
  | cons {pair : Node × Node} {rest : List (Node × Node)} {pass pass₁ pass' : Pass} :
      Step d pair pass pass₁ → Steps d rest pass₁ pass' → Steps d (pair :: rest) pass pass'

theorem foldlM_setPair_iff {d : Document} {pairs : List (Node × Node)} {pass pass' : Pass} :
    (pairs.foldlM (setPair d) pass = .ok pass' ∧ pass'.progress.2 = []) ↔
      pass.progress.2 = [] ∧ Steps d pairs pass pass' := by
  induction pairs generalizing pass with
  | nil =>
      constructor
      · rintro ⟨h, hfine⟩
        cases h
        exact ⟨hfine, .nil⟩
      · rintro ⟨hfine, ⟨⟩⟩
        exact ⟨rfl, hfine⟩
  | cons pair rest ih =>
      simp only [List.foldlM_cons, bind, Except.bind]
      constructor
      · rintro ⟨h, hfine⟩
        cases hpair : setPair d pass pair with
        | error why =>
            rw [hpair] at h
            cases h
        | ok pass₁ =>
            rw [hpair] at h
            obtain ⟨hfine₁, hrest⟩ := ih.1 ⟨h, hfine⟩
            obtain ⟨hfine₀, hstep⟩ := setPair_iff.1 ⟨hpair, hfine₁⟩
            exact ⟨hfine₀, .cons hstep hrest⟩
      · rintro ⟨hfine, hsteps⟩
        cases hsteps with
        | cons hstep hrest =>
            obtain ⟨hpair, hfine₁⟩ := setPair_iff.2 ⟨hfine, hstep⟩
            rw [hpair]
            exact ih.2 ⟨hfine₁, hrest⟩

theorem not_names_of_passed {d : Document} {key : Node} {f : Field}
    (h : key.isMerge ∨ keyName d key = .ok (.missing [])) : ¬ Names d key f := by
  rintro ⟨hmerge, hkey⟩
  rcases h with h | h
  · rw [h] at hmerge
    cases hmerge
  · rw [h] at hkey
    cases hkey

theorem Steps.names_eq_none {d : Document} {pairs : List (Node × Node)} {pass pass' : Pass}
    (h : Steps d pairs pass pass') (hnames : pass.names = none) : pass'.names = none := by
  induction h with
  | nil => exact hnames
  | cons hstep _ ih =>
      refine ih ?_
      cases hstep with
      | field => simp [hnames]
      | _ => exact hnames

/-- Where names count as given, those of the settings that are given are among them. -/
theorem Steps.counts_of_given {d : Document} {pairs : List (Node × Node)} {pass pass' : Pass}
    (h : Steps d pairs pass pass') (hnames : pass.names.isSome) (hgiven : ∀ f ∈ pass.given, counts pass.names f) :
    pass'.names.isSome ∧ ∀ f ∈ pass'.given, counts pass'.names f := by
  induction h with
  | nil => exact ⟨hnames, hgiven⟩
  | @cons _ _ pass _ _ hstep _ ih =>
      cases hstep with
      | @field f o _ _ _ =>
          obtain ⟨names, hsome⟩ := Option.isSome_iff_exists.1 hnames
          rw [hsome] at hgiven
          refine ih (by simp [hsome]) ?_
          simp only [hsome, Option.map_some, List.forall_mem_cons]
          refine ⟨by simp [counts], fun g hg => ?_⟩
          have hcounts := hgiven g hg
          simp only [counts, Option.any_some, List.contains_iff_mem, List.mem_cons] at hcounts ⊢
          exact .inr hcounts
      | _ => exact ih hnames hgiven

/-- There is nothing wrong with the pair by itself. -/
def Fine (d : Document) (pair : Node × Node) : Prop :=
  (pair.1.isMerge ∨ keyName d pair.1 = .ok (.missing [])) ∨ ∃ f o, Names d pair.1 f ∧ Offers d f pair.2 o

/-- No setting is named by both pairs. -/
def Apart (d : Document) (pair other : Node × Node) : Prop := ∀ f, Names d pair.1 f → ¬ Names d other.1 f

theorem Pass.taken_eq_false {pass : Pass} {f : Field} (hnames : pass.names = none) :
    pass.taken f = false ↔ f ∉ pass.given := by
  simp [Pass.taken, counts, hnames]

/-- Pairs of which none counts as given are taken one after the other exactly if each is fine and no setting is
named twice, which does not depend on their order. -/
theorem exists_steps_iff {d : Document} {pairs : List (Node × Node)} {pass : Pass} (hnames : pass.names = none) :
    (∃ pass', Steps d pairs pass pass') ↔
      (∀ pair ∈ pairs, Fine d pair ∧ ∀ f ∈ pass.given, ¬ Names d pair.1 f) ∧ pairs.Pairwise (Apart d) := by
  induction pairs generalizing pass with
  | nil => exact ⟨fun _ => ⟨by simp, .nil⟩, fun _ => ⟨pass, .nil⟩⟩
  | cons head rest ih =>
      rw [List.forall_mem_cons, List.pairwise_cons]
      constructor
      · rintro ⟨pass', hsteps⟩
        cases hsteps with
        | @cons _ _ _ pass₁ _ hstep hrest =>
            cases hstep with
            | known _ hknown => simp [hnames] at hknown
            | passed hpassed =>
                obtain ⟨hfine, hapart⟩ := (ih hnames).1 ⟨pass', hrest⟩
                exact ⟨⟨⟨.inl hpassed, fun f _ => not_names_of_passed hpassed⟩, hfine⟩,
                  fun pair _ f hhead => absurd hhead (not_names_of_passed hpassed), hapart⟩
            | @field g o hhead hfree hoffer =>
                obtain ⟨hfine, hapart⟩ := (ih (by simp [hnames])).1 ⟨pass', hrest⟩
                refine ⟨⟨⟨.inr ⟨g, o, hhead, hoffer⟩, fun f hf hf' => ?_⟩, fun pair hmem => ?_⟩, ?_, hapart⟩
                · exact (Pass.taken_eq_false hnames).1 hfree (hf'.unique hhead ▸ hf)
                · exact ⟨(hfine pair hmem).1, fun f hf => (hfine pair hmem).2 f (List.mem_cons_of_mem _ hf)⟩
                · intro pair hmem f hf
                  rw [hf.unique hhead]
                  exact (hfine pair hmem).2 g List.mem_cons_self
      · rintro ⟨⟨⟨hhead, hgiven⟩, hfine⟩, hhere, hapart⟩
        rcases hhead with hpassed | ⟨f, o, hf, hoffer⟩
        · obtain ⟨pass', hrest⟩ := (ih hnames).2 ⟨hfine, hapart⟩
          exact ⟨pass', .cons (.passed hpassed) hrest⟩
        · have hstep := Step.field hf ((Pass.taken_eq_false hnames).2 fun hmem => hgiven f hmem hf) hoffer
          have hfine₁ : ∀ pair ∈ rest, Fine d pair ∧ ∀ g ∈ f :: pass.given, ¬ Names d pair.1 g := fun pair hmem =>
            ⟨(hfine pair hmem).1, List.forall_mem_cons.2 ⟨hhere pair hmem f hf, (hfine pair hmem).2⟩⟩
          have hnames₁ : pass.names.map (f.name :: ·) = none := by simp [hnames]
          obtain ⟨pass', hrest⟩ := (@ih ⟨_, f :: pass.given, _⟩ hnames₁).2 ⟨hfine₁, hapart⟩
          exact ⟨pass', .cons hstep hrest⟩

end Settings

end LetScript
