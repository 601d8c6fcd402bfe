import Mathlib.Data.List.Perm.Basic
import LetScript.Proofs.Settings.Listing

/-!
# The order of a document

For a document that lists scalars, the order in which it lists them does not matter, neither for its settings nor
for whether it is accepted.
-/

namespace LetScript

namespace Settings

open Yaml (Document Node)

/-! ## Documents that list scalars -/

/-- A scalar under a key that is a scalar, each with its tag. -/
structure Entry where
  keyTag : Text
  key : Text
  tag : Text
  text : Text
  deriving DecidableEq

namespace Entry

def ofPair? : Node × Node → Option Entry
  | (.scalar _ keyTag key, .scalar _ tag text) => some ⟨keyTag, key, tag, text⟩
  | _ => none

def toPair (e : Entry) : Node × Node := (.scalar 0 e.keyTag e.key, .scalar 0 e.tag e.text)

theorem ofPair?_eq_some {pair : Node × Node} {e : Entry} :
    ofPair? pair = some e ↔
      ∃ line line', pair = (.scalar line e.keyTag e.key, .scalar line' e.tag e.text) := by
  constructor
  · intro h
    unfold ofPair? at h
    split at h
    · cases h
      exact ⟨_, _, rfl⟩
    · cases h
  · rintro ⟨line, line', rfl⟩
    rfl

end Entry

/-- What a document lists, if it is a mapping of scalars to scalars. -/
def entries? (d : Document) : Option (List Entry) :=
  match d.root with
  | .mapping _ _ pairs => pairs.mapM Entry.ofPair?
  | _ => none

/-- The pairs are spelled like the entries. -/
abbrev Spells : List (Node × Node) → List Entry → Prop := List.Forall₂ fun pair e => Entry.ofPair? pair = some e

theorem spells_toPair (entries : List Entry) : Spells (entries.map Entry.toPair) entries := by
  induction entries with
  | nil => exact .nil
  | cons e rest ih => exact .cons rfl ih

theorem exists_pairs_of_entries? {d : Document} {entries : List Entry} (h : entries? d = some entries) :
    ∃ pairs, (∃ line tag, d.root = .mapping line tag pairs) ∧ Spells pairs entries := by
  unfold entries? at h
  split at h
  · rename_i line tag pairs hroot
    exact ⟨pairs, ⟨line, tag, hroot⟩, forall₂_of_mapM h⟩
  · cases h

theorem Offers.respell {d d' : Document} {f : Field} {line line' : Nat} {tag text : Text} {o : Option f.Carrier}
    (h : Offers d f (.scalar line tag text) o) : Offers d' f (.scalar line' tag text) o := by
  cases h with
  | null hfollow hresolve =>
      cases hfollow
      exact .null rfl hresolve
  | scalar hfollow hresolve hr hread =>
      cases hfollow
      exact .scalar rfl hresolve hr hread
  | reference hfollow => cases hfollow

/-- Pairs that are spelled alike take the same steps, wherever they stand. -/
theorem Step.respell {d d' : Document} {pair pair' : Node × Node} {e : Entry} {pass pass' : Pass}
    (h : Step d pair pass pass') (hpair : Entry.ofPair? pair = some e) (hpair' : Entry.ofPair? pair' = some e) :
    Step d' pair' pass pass' := by
  obtain ⟨line, line', rfl⟩ := Entry.ofPair?_eq_some.1 hpair
  obtain ⟨line₁, line₁', rfl⟩ := Entry.ofPair?_eq_some.1 hpair'
  cases h with
  | passed hpassed => exact .passed hpassed
  | known hkey hknown => exact .known hkey hknown
  | field hnames hfree hoffer => exact .field hnames hfree hoffer.respell

theorem Steps.respell {d d' : Document} {pairs pairs' : List (Node × Node)} {entries : List Entry}
    {pass pass' : Pass} (h : Steps d pairs pass pass') (hpairs : Spells pairs entries)
    (hpairs' : Spells pairs' entries) : Steps d' pairs' pass pass' := by
  induction h generalizing entries pairs' with
  | nil =>
      cases hpairs
      cases hpairs'
      exact .nil
  | cons hstep _ ih =>
      cases hpairs with
      | cons hpair hpairs =>
          cases hpairs' with
          | cons hpair' hpairs' => exact .cons (hstep.respell hpair hpair') (ih hpairs hpairs')

/-! ## Their order -/

/-- Pairs that are taken one after the other are taken in any order, with the same settings in the end. -/
theorem Steps.perm {d : Document} {pairs pairs' : List (Node × Node)} {pass pass₁ : Pass}
    (h : Steps d pairs pass pass₁) (hnames : pass.names = none) (hperm : pairs.Perm pairs') :
    ∃ pass₂, Steps d pairs' pass pass₂ ∧ pass₂.progress.1 = pass₁.progress.1 := by
  obtain ⟨hfine, hapart⟩ := (exists_steps_iff hnames).1 ⟨pass₁, h⟩
  have hsymm : ∀ {pair other : Node × Node}, Apart d pair other → Apart d other pair :=
    fun hapart f hother hpair => hapart f hpair hother
  have hfine' : ∀ pair ∈ pairs', Fine d pair ∧ ∀ f ∈ pass.given, ¬ Names d pair.1 f :=
    fun pair hmem => hfine pair (hperm.mem_iff.2 hmem)
  have hapart' : pairs'.Pairwise (Apart d) := (hperm.pairwise_iff hsymm).1 hapart
  obtain ⟨pass₂, h'⟩ := (exists_steps_iff hnames).2 ⟨hfine', hapart'⟩
  refine ⟨pass₂, h', ext_get fun f => ?_⟩
  have hcourse := h.course f
  have hcourse' := h'.course f
  by_cases hnamed : ∃ pair ∈ pairs, Names d pair.1 f
  · obtain ⟨pair, hmem, hpair⟩ := hnamed
    have hfree : pass.taken f = false :=
      (Pass.taken_eq_false hnames).2 fun hgiven => (hfine pair hmem).2 f hgiven hpair
    rw [hfree, ← List.append_nil pairs] at hcourse
    rw [hfree, ← List.append_nil pairs'] at hcourse'
    obtain ⟨o, hoffer, hget⟩ := hcourse.of_apart hapart hmem hpair
    obtain ⟨o', hoffer', hget'⟩ := hcourse'.of_apart hapart' (hperm.mem_iff.1 hmem) hpair
    rw [hget, hget', hoffer.unique hoffer']
  · have hunnamed : ∀ pair ∈ pairs, ¬ Names d pair.1 f := fun pair hmem hpair => hnamed ⟨pair, hmem, hpair⟩
    rw [(hcourse.of_unnamed hunnamed).2,
      (hcourse'.of_unnamed fun pair hmem => hunnamed pair (hperm.mem_iff.2 hmem)).2]

theorem duplicates_eq_nil_iff {pairs : List (Node × Node)} :
    duplicates pairs = [] ↔ (pairs.map fun pair => keyText pair.1).Nodup := by
  induction pairs with
  | nil => simp [duplicates]
  | cons pair rest ih =>
      simp only [duplicates, List.append_eq_nil_iff, List.map_eq_nil_iff, List.filter_eq_nil_iff, ih,
        List.map_cons, List.nodup_cons, List.mem_map, not_exists, not_and, decide_eq_true_eq]

theorem Spells.map_eq {β : Type} {pairs : List (Node × Node)} {entries : List Entry} (h : Spells pairs entries)
    {g : Node → β} (hg : ∀ line tag text, g (.scalar line tag text) = g (.scalar 0 tag text)) :
    pairs.map (fun pair => g pair.1) = entries.map fun e => g e.toPair.1 := by
  induction h with
  | nil => rfl
  | cons hpair _ ih =>
      obtain ⟨line, line', rfl⟩ := Entry.ofPair?_eq_some.1 hpair
      simp only [List.map_cons, ih, hg line]
      rfl

theorem Spells.mergeParts_cases {pairs : List (Node × Node)} {entries : List Entry} (h : Spells pairs entries) :
    (∀ pair ∈ pairs, pair.1.isMerge = false) ∧ mergeParts pairs = [] ∨
      (∃ pair ∈ pairs, pair.1.isMerge = true) ∧ ∃ line tag text, mergeParts pairs = [.scalar line tag text] := by
  unfold mergeParts
  cases hlast : (pairs.filter (·.1.isMerge)).getLast? with
  | none =>
      left
      rw [List.getLast?_eq_none_iff, List.filter_eq_nil_iff] at hlast
      exact ⟨fun pair hmem => by simpa using hlast pair hmem, rfl⟩
  | some last =>
      right
      obtain ⟨hmem, hmerge⟩ := List.mem_filter.1 (List.mem_of_getLast? hlast)
      refine ⟨⟨last, hmem, hmerge⟩, ?_⟩
      obtain ⟨i, hi, rfl⟩ := List.getElem_of_mem hmem
      obtain ⟨line, line', heq⟩ := Entry.ofPair?_eq_some.1 (h.get hi (h.length_eq ▸ hi))
      simp only [List.get_eq_getElem] at heq
      rw [heq]
      exact ⟨_, _, _, rfl⟩

/-- A document that lists scalars is read without a complaint exactly if it repeats no key, has none to merge,
and its entries can be taken one after the other. -/
theorem decode_iff_of_entries? {d : Document} {entries : List Entry} (h : entries? d = some entries)
    {s s' : Settings} :
    decode s d = .ok (s', []) ↔
      (entries.map fun e => keyText e.toPair.1).Nodup ∧ (∀ e ∈ entries, e.toPair.1.isMerge = false) ∧
        ∃ pass, Steps d (entries.map Entry.toPair) ⟨(s, []), [], none⟩ pass ∧ pass.progress = (s', []) := by
  obtain ⟨pairs, ⟨line, tag, hroot⟩, hspells⟩ := exists_pairs_of_entries? h
  have hfollow : d.follow d.root = .mapping line tag pairs := by rw [hroot]; rfl
  obtain ⟨n, hn⟩ : ∃ n, (d.extent + 2) * (d.extent + 2) = n + 1 := ⟨_, rfl⟩
  have hkeys := hspells.map_eq (g := keyText) fun _ _ _ => rfl
  have hmerges := hspells.map_eq (g := Node.isMerge) fun _ _ _ => rfl
  have hmerge : (∀ pair ∈ pairs, pair.1.isMerge = false) ↔ ∀ e ∈ entries, e.toPair.1.isMerge = false := by
    have hforall : (∀ b ∈ pairs.map fun pair => pair.1.isMerge, b = false) ↔
        ∀ b ∈ entries.map fun e => e.toPair.1.isMerge, b = false := by rw [hmerges]
    simpa only [List.forall_mem_map] using hforall
  rw [decode_mapping_iff hfollow, hn, ← hkeys, ← duplicates_eq_nil_iff, ← hmerge]
  constructor
  · rintro ⟨names, hset⟩
    obtain ⟨hrepeated, pass, hpass, hparts⟩ := setMapping_iff.1 hset
    rcases hspells.mergeParts_cases with ⟨hnone, hnil⟩ | ⟨-, line', tag', text, hscalar⟩
    · simp only [hnil, List.foldlM_nil, pure, Except.pure, Except.ok.injEq, Prod.mk.injEq] at hparts
      have hprogress : pass.progress = (s', []) := hparts.1
      obtain ⟨-, hsteps⟩ := foldlM_setPair_iff.1 ⟨hpass, by rw [hprogress]⟩
      exact ⟨hrepeated, hnone, pass, hsteps.respell hspells (spells_toPair entries), hprogress⟩
    · rw [hscalar] at hparts
      cases hparts
  · rintro ⟨hrepeated, hnone, pass, hsteps, hprogress⟩
    have hown : Steps d pairs ⟨(s, []), [], none⟩ pass := hsteps.respell (spells_toPair entries) hspells
    obtain ⟨hpass, -⟩ := foldlM_setPair_iff.2 ⟨rfl, hown⟩
    rcases hspells.mergeParts_cases with ⟨-, hnil⟩ | ⟨⟨pair, hmem, hpair⟩, -⟩
    · refine ⟨pass.names.orElse fun _ => some (givenNames d pairs), ?_⟩
      refine setMapping_iff.2 ⟨hrepeated, pass, hpass, ?_⟩
      rw [hnil, hprogress]
      rfl
    · rw [hnone pair hmem] at hpair
      cases hpair

/-- A document that lists the same in another order is read alike. -/
theorem decode_perm {d d' : Document} {entries entries' : List Entry} (h : entries? d = some entries)
    (h' : entries? d' = some entries') (hperm : entries.Perm entries') {s s' : Settings}
    (hdecode : decode s d = .ok (s', [])) : decode s d' = .ok (s', []) := by
  obtain ⟨hkeys, hmerge, pass, hsteps, hprogress⟩ := (decode_iff_of_entries? h).1 hdecode
  obtain ⟨pass', hsteps', hsame⟩ := hsteps.perm rfl (hperm.map Entry.toPair)
  have hthere : Steps d' (entries'.map Entry.toPair) ⟨(s, []), [], none⟩ pass' :=
    hsteps'.respell (spells_toPair entries') (spells_toPair entries')
  refine (decode_iff_of_entries? h').2 ⟨((hperm.map _).nodup_iff).1 hkeys, ?_, pass', hthere, ?_⟩
  · exact fun e hmem => hmerge e (hperm.mem_iff.2 hmem)
  · have hcomplaints : pass'.progress.2 = [] :=
      (foldlM_setPair_iff.2 ⟨rfl, hsteps'⟩).2
    rw [hprogress] at hsame
    exact Prod.ext hsame hcomplaints

/-- What a content lists, if it is a document that lists scalars. -/
def entriesIn (content : Text) : Option (List Entry) :=
  match Yaml.parse content with
  | .ok (some d) => entries? d
  | _ => none

theorem exists_document_of_entriesIn {content : Text} {entries : List Entry} (h : entriesIn content = some entries) :
    ∃ d, Yaml.parse content = .ok (some d) ∧ entries? d = some entries := by
  unfold entriesIn at h
  split at h
  · rename_i d hparse
    exact ⟨d, hparse, h⟩
  · cases h

/-- Contents that list the same in different orders are read alike. -/
theorem yaml_perm {content content' : Text} {entries entries' : List Entry} (h : entriesIn content = some entries)
    (h' : entriesIn content' = some entries') (hperm : entries.Perm entries') {s s' : Settings}
    (hread : yaml content s = (s', .done)) : yaml content' s = (s', .done) := by
  obtain ⟨d, hparse, hentries⟩ := exists_document_of_entriesIn h
  obtain ⟨d', hparse', hentries'⟩ := exists_document_of_entriesIn h'
  have hdecode := decode_perm hentries hentries' hperm ((yaml_eq_done hparse).1 hread)
  exact (yaml_eq_done hparse').2 hdecode

end Settings

end LetScript
