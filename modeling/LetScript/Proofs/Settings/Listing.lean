import Mathlib.Data.List.Forall2
import LetScript.Proofs.Settings.Overlay

/-!
# What contents list

A decoder is taken at its word: it overwrites only the settings whose keys a content lists, and refuses a content
with keys that are unknown or listed twice, or with values of the wrong kind (`Decoder.Reads`). From this, what the
settings are after a content that has not been refused, in whatever order it lists its keys
(`Decoder.Reads.laidOver`). The decoder for settings documents is such a decoder (`yaml_reads`).
-/

namespace LetScript

namespace Settings

/-! ## Listings -/

instance Field.decidableEqCarrier : (f : Field) → DecidableEq f.Carrier
  | .history => inferInstanceAs (DecidableEq Bool)
  | .maxEchoWidth => inferInstanceAs (DecidableEq Int)
  | .prompt | .continuationPrompt | .historyFile | .sourceName => inferInstanceAs (DecidableEq Text)

/-- What a value is to a setting. -/
inductive Offer (f : Field) where
  | null
  | value (v : f.Carrier)
  /-- A value of another kind than the one wanted. -/
  | mismatch
  deriving DecidableEq

/-- A key with its value. -/
structure Pair where
  key : Text
  offer : (f : Field) → Offer f

/-- What a content lists. -/
inductive Listing where
  /-- No document. -/
  | nothing
  /-- Keys with their values, in order. -/
  | pairs (pairs : List Pair)

/-- The keys with their values. -/
def Listing.all : Listing → List Pair
  | nothing => []
  | pairs l => l

def Listing.isNothing : Listing → Bool
  | nothing => true
  | pairs _ => false

/-- What contents list, as far as they are of a simple form. -/
abbrev View := Text → Option Listing

/-- The settings `s'` are the listing over the settings `s`: what is not listed is unchanged, and all that is listed
is a setting with a value for it, which it has unless it is null. -/
structure Listing.LaidOver (l : Listing) (s s' : Settings) : Prop where
  unlisted : ∀ f : Field, (∀ p ∈ l.all, p.key ≠ f.name) → s'.get f = s.get f
  listed : ∀ p ∈ l.all, ∃ f : Field, p.key = f.name ∧ p.offer f ≠ .mismatch ∧
    ∀ v, p.offer f = .value v → s'.get f = v

/-! ## Decoders -/

/-- Whether a content has been refused. -/
def Verdict.refuses : Verdict → Bool
  | done | nothing => false
  | malformed _ | mismatched _ => true

/-- What a decoder has to do with contents of a simple form. -/
structure Decoder.Reads (decoder : Decoder) (view : View) : Prop where
  /-- Only the settings whose keys occur are overwritten, even if the content is refused. -/
  untouched : ∀ content l, view content = some l → ∀ (s : Settings) (f : Field), (∀ p ∈ l.all, p.key ≠ f.name) →
    (decoder content s).1.get f = s.get f
  /-- A setting is overwritten with the value of its key, the last one if there are several. -/
  overwritten : ∀ content l, view content = some l → ∀ (s : Settings) (before : List Pair) (p : Pair)
    (after : List Pair) (f : Field) (v : f.Carrier), l.all = before ++ p :: after → p.key = f.name →
    (∀ q ∈ after, q.key ≠ f.name) → p.offer f = .value v → (decoder content s).2 = .done →
    (decoder content s).1.get f = v
  /-- A key that names no setting is refused. -/
  unknown : ∀ content l, view content = some l → ∀ s, ∀ p ∈ l.all, (∀ f : Field, p.key ≠ f.name) →
    (decoder content s).2.refuses
  /-- A key that is listed twice is refused. -/
  repeated : ∀ content l, view content = some l → ∀ s, ¬ (l.all.map Pair.key).Nodup → (decoder content s).2.refuses
  /-- A value of the wrong kind is refused. -/
  mismatched : ∀ content l, view content = some l → ∀ s, ∀ p ∈ l.all, ∀ f : Field, p.key = f.name →
    p.offer f = .mismatch → (decoder content s).2.refuses
  /-- A content is found to hold nothing exactly if there is no document in it. -/
  ended : ∀ content s, (decoder content s).2 = .nothing ↔ view content = some .nothing

namespace Decoder.Reads

variable {decoder : Decoder} {view : View} {content : Text} {l : Listing} {s : Settings}

theorem verdict_cases (hd : decoder.Reads view) (hview : view content = some l)
    (h : (decoder content s).2.refuses = false) : l = .nothing ∨ (decoder content s).2 = .done := by
  cases hverdict : (decoder content s).2 with
  | done => exact .inr rfl
  | nothing =>
      have hnothing := (hd.ended content s).1 hverdict
      rw [hview] at hnothing
      exact .inl (Option.some.inj hnothing)
  | malformed why =>
      rw [hverdict] at h
      cases h
  | mismatched mismatches =>
      rw [hverdict] at h
      cases h

/-- A content that is not refused is laid over the settings. -/
theorem laidOver (hd : decoder.Reads view) (hview : view content = some l)
    (h : (decoder content s).2.refuses = false) : l.LaidOver s (decoder content s).1 where
  unlisted f hno := hd.untouched content l hview s f hno
  listed p hmem := by
    have hfine : ¬ (decoder content s).2.refuses := by simp [h]
    obtain ⟨f, hkey⟩ : ∃ f : Field, p.key = f.name := by
      refine Classical.byContradiction fun hno => hfine ?_
      exact hd.unknown content l hview s p hmem fun f hkey => hno ⟨f, hkey⟩
    refine ⟨f, hkey, fun hoffer => hfine (hd.mismatched content l hview s p hmem f hkey hoffer), fun v hoffer => ?_⟩
    rcases hd.verdict_cases hview h with rfl | hdone
    · cases hmem
    · -- no key is listed twice, so the pair is the last one with its key
      obtain ⟨before, after, hsplit⟩ := List.append_of_mem hmem
      have hnodup : (l.all.map Pair.key).Nodup := by
        refine Classical.byContradiction fun hrepeated => hfine ?_
        exact hd.repeated content l hview s hrepeated
      rw [hsplit, List.map_append, List.map_cons, List.nodup_append, List.nodup_cons] at hnodup
      refine hd.overwritten content l hview s before p after f v hsplit hkey (fun q hq hsame => ?_) hoffer hdone
      exact hnodup.2.1.1 (List.mem_map.2 ⟨q, hq, hsame.trans hkey.symm⟩)

end Decoder.Reads

/-- Settings over which the same pairs have been laid are the same in whatever order these were listed, but for
settings to which a null is given. -/
theorem Listing.LaidOver.get_eq {l l' : Listing} {s s₁ s₂ : Settings} (h : l.LaidOver s s₁) (h' : l'.LaidOver s s₂)
    (hperm : l.all.Perm l'.all) {f : Field} (hnull : ∀ p ∈ l.all, p.key = f.name → p.offer f ≠ .null) :
    s₂.get f = s₁.get f := by
  by_cases hlisted : ∃ p ∈ l.all, p.key = f.name
  · obtain ⟨p, hmem, hkey⟩ := hlisted
    obtain ⟨g, hg, hmatch, hvalue⟩ := h.listed p hmem
    obtain ⟨g', hg', -, hvalue'⟩ := h'.listed p (hperm.mem_iff.1 hmem)
    obtain rfl : f = g := Field.name_inj (hkey.symm.trans hg)
    obtain rfl : f = g' := Field.name_inj (hkey.symm.trans hg')
    cases hoffer : p.offer f with
    | null => exact absurd hoffer (hnull p hmem hkey)
    | mismatch => exact absurd hoffer hmatch
    | value v => rw [hvalue v hoffer, hvalue' v hoffer]
  · have hunlisted : ∀ p ∈ l.all, p.key ≠ f.name := fun p hmem hkey => hlisted ⟨p, hmem, hkey⟩
    rw [h.unlisted f hunlisted, h'.unlisted f fun p hmem => hunlisted p (hperm.mem_iff.2 hmem)]

/-! ## Settings documents -/

open Yaml (Document Node resolveAs)

/-- What a part of a document is to a setting. -/
def offerOf (d : Document) (value : Node) (f : Field) : Offer f :=
  match d.follow value with
  | .scalar _ tag text =>
    match resolveAs tag text with
    | .error _ => .mismatch
    | .ok .null => .null
    | .ok r => (f.read? r text).elim .mismatch .value
  | .reference _ _ _ _ => .null
  | _ => .mismatch

theorem Offers.offerOf {d : Document} {f : Field} {value : Node} {o : Option f.Carrier} (h : Offers d f value o) :
    Settings.offerOf d value f = o.elim .null .value := by
  unfold Settings.offerOf
  cases h with
  | null hfollow hresolve => simp only [hfollow, hresolve, Option.elim_none]
  | reference hfollow => simp only [hfollow, Option.elim_none]
  | @scalar _ _ _ r _ hfollow hresolve hr hread =>
      simp only [hfollow, hresolve]
      cases r with
      | null => exact absurd rfl hr
      | _ => simp only [hread, Option.elim_some]

/-- A pair with a key that gives a name, and asks for nothing to be taken over. -/
def Pair.ofNodes? (d : Document) (pair : Node × Node) : Option Pair :=
  if pair.1.isMerge then none
  else
    match keyName d pair.1 with
    | .ok (.given name) => some ⟨name, offerOf d pair.2⟩
    | _ => none

theorem Pair.ofNodes?_eq_some {d : Document} {pair : Node × Node} {p : Pair} :
    ofNodes? d pair = some p ↔
      pair.1.isMerge = false ∧ keyName d pair.1 = .ok (.given p.key) ∧ offerOf d pair.2 = p.offer := by
  obtain ⟨key, offer⟩ := p
  unfold ofNodes?
  constructor
  · intro h
    split at h
    · cases h
    · rename_i hmerge
      split at h
      · rename_i name hname
        cases h
        exact ⟨by simpa using hmerge, hname, rfl⟩
      · cases h
  · rintro ⟨hmerge, hname, rfl⟩
    simp only [hmerge, hname, Bool.false_eq_true, ↓reduceIte]

theorem Pair.names_iff {d : Document} {pair : Node × Node} {p : Pair} (h : ofNodes? d pair = some p) {f : Field} :
    Names d pair.1 f ↔ p.key = f.name := by
  obtain ⟨hmerge, hname, -⟩ := ofNodes?_eq_some.1 h
  simp only [Names, hmerge, hname, true_and, Except.ok.injEq, KeyName.given.injEq]

/-- What a content lists, if it has no document or this is a null, or a mapping whose keys give names. -/
def listing : View := fun content =>
  match Yaml.parse content with
  | .error _ => none
  | .ok none => some .nothing
  | .ok (some d) =>
    match d.follow d.root with
    | .scalar _ tag text =>
      match resolveAs tag text with
      | .ok .null => some (.pairs [])
      | _ => none
    | .mapping _ _ pairs => (pairs.mapM (Pair.ofNodes? d)).map .pairs
    | _ => none

theorem forall₂_of_mapM {α β : Type} {f : α → Option β} {items : List α} {found : List β}
    (h : items.mapM f = some found) : List.Forall₂ (fun a b => f a = some b) items found := by
  induction items generalizing found with
  | nil =>
      cases h
      exact .nil
  | cons a rest ih =>
      simp only [List.mapM_cons, Option.bind_eq_bind, Option.bind_eq_some_iff, Option.pure_def,
        Option.some.injEq] at h
      obtain ⟨b, hb, more, hmore, rfl⟩ := h
      exact .cons hb (ih hmore)

/-- The pairs of a document are those of a listing. -/
abbrev Lists (d : Document) : List (Node × Node) → List Pair → Prop :=
  List.Forall₂ fun pair p => Pair.ofNodes? d pair = some p

namespace Lists

variable {d : Document} {nodes : List (Node × Node)} {pairs : List Pair}

theorem exists_node (h : Lists d nodes pairs) {p : Pair} (hp : p ∈ pairs) :
    ∃ pair ∈ nodes, Pair.ofNodes? d pair = some p := by
  induction h with
  | nil => cases hp
  | cons hpair _ ih =>
      rcases List.mem_cons.1 hp with rfl | hp
      · exact ⟨_, List.mem_cons_self, hpair⟩
      · obtain ⟨pair, hmem, hpair⟩ := ih hp
        exact ⟨pair, List.mem_cons_of_mem _ hmem, hpair⟩

theorem exists_pair (h : Lists d nodes pairs) {pair : Node × Node} (hpair : pair ∈ nodes) :
    ∃ p ∈ pairs, Pair.ofNodes? d pair = some p := by
  induction h with
  | nil => cases hpair
  | cons hhead _ ih =>
      rcases List.mem_cons.1 hpair with rfl | hpair
      · exact ⟨_, List.mem_cons_self, hhead⟩
      · obtain ⟨p, hmem, hp⟩ := ih hpair
        exact ⟨p, List.mem_cons_of_mem _ hmem, hp⟩

theorem mergeParts_eq_nil (h : Lists d nodes pairs) : mergeParts nodes = [] := by
  have hnone : nodes.filter (·.1.isMerge) = [] := by
    refine List.filter_eq_nil_iff.2 fun pair hmem => ?_
    obtain ⟨p, -, hp⟩ := h.exists_pair hmem
    simp [(Pair.ofNodes?_eq_some.1 hp).1]
  rw [mergeParts, hnone]
  rfl

/-- Keys that name settings, of which no two are named alike, are different. -/
theorem nodup (h : Lists d nodes pairs) (hapart : nodes.Pairwise (Apart d))
    (hnames : ∀ p ∈ pairs, ∃ f : Field, p.key = f.name) : (pairs.map Pair.key).Nodup := by
  induction h with
  | nil => exact List.nodup_nil
  | @cons pair p _ _ hpair hrest ih =>
      obtain ⟨hhead, hapart⟩ := List.pairwise_cons.1 hapart
      obtain ⟨⟨f, hf⟩, hnames⟩ := List.forall_mem_cons.1 hnames
      rw [List.map_cons, List.nodup_cons]
      refine ⟨fun hmem => ?_, ih hapart hnames⟩
      obtain ⟨q, hq, hsame⟩ := List.mem_map.1 hmem
      obtain ⟨other, hother, hlisted⟩ := exists_node hrest hq
      exact hhead other hother f ((Pair.names_iff hpair).2 hf) ((Pair.names_iff hlisted).2 (hsame.trans hf))

end Lists

theorem listing_cases {content : Text} {l : Listing} (h : listing content = some l) :
    Yaml.parse content = .ok none ∧ l = .nothing ∨
    ∃ d, Yaml.parse content = .ok (some d) ∧ l ≠ .nothing ∧ Lists d (pairsIn d d.root) l.all := by
  unfold listing at h
  split at h
  · cases h
  · rename_i hparse
    cases h
    exact .inl ⟨hparse, rfl⟩
  · rename_i d hparse
    right
    split at h
    · rename_i hroot
      split at h
      · cases h
        refine ⟨d, hparse, by rintro ⟨⟩, ?_⟩
        rw [pairsIn, hroot]
        exact .nil
      · cases h
    · rename_i nodes hroot
      obtain ⟨pairs, hpairs, rfl⟩ := Option.map_eq_some_iff.1 h
      refine ⟨d, hparse, by rintro ⟨⟩, ?_⟩
      rw [pairsIn, hroot]
      exact forall₂_of_mapM hpairs
    · cases h

/-- A mapping that takes nothing over has only its own pairs. -/
theorem pairsOf_of_lists {d : Document} {pairs : List Pair} (h : Lists d (pairsIn d d.root) pairs) :
    pairsOf d = pairsIn d d.root := by
  obtain ⟨n, hn⟩ : ∃ n, (d.extent + 2) * (d.extent + 2) = n + 1 := ⟨_, rfl⟩
  rw [pairsOf, hn, spread, h.mergeParts_eq_nil, List.flatMap_nil, List.append_nil]

/-- What is known of a listed document that has been read without a complaint. -/
theorem decode_listed {d : Document} {pairs : List Pair} {s s' : Settings} (hlists : Lists d (pairsIn d d.root) pairs)
    (h : decode s d = .ok (s', [])) :
    (∀ p ∈ pairs, ∃ f : Field, p.key = f.name ∧ p.offer f ≠ .mismatch ∧ ∀ v, p.offer f = .value v → s'.get f = v) ∧
      (pairs.map Pair.key).Nodup := by
  obtain ⟨hfine, hapart⟩ := (exists_steps_iff rfl).1 (decode_steps h)
  have hlisted : ∀ p ∈ pairs, ∃ f : Field, p.key = f.name ∧ p.offer f ≠ .mismatch ∧
      ∀ v, p.offer f = .value v → s'.get f = v := by
    intro p hp
    obtain ⟨pair, hmem, hpair⟩ := hlists.exists_node hp
    obtain ⟨hmerge, hname, hoffer⟩ := Pair.ofNodes?_eq_some.1 hpair
    rcases (hfine pair hmem).1 with (hpassed | hpassed) | ⟨f, o, hf, hoffers⟩
    · rw [hmerge] at hpassed
      cases hpassed
    · rw [hname] at hpassed
      cases hpassed
    · have hp : p.offer f = o.elim .null .value := by rw [← hoffer, hoffers.offerOf]
      refine ⟨f, (Pair.names_iff hpair).1 hf, ?_, fun v hv => ?_⟩
      · cases o <;> simp [hp]
      · obtain ⟨o', hoffers', hget⟩ := (decode_overlays h).own f pair hmem hf
        obtain rfl := hoffers.unique hoffers'
        cases o with
        | none => simp [hp] at hv
        | some v' =>
            obtain rfl : v' = v := by simpa [hp] using hv
            exact hget
  exact ⟨hlisted, hlists.nodup hapart fun p hp => (hlisted p hp).imp fun f hf => hf.1⟩

/-- A listed document that is not refused has been read without a complaint. -/
theorem decode_of_not_refused {content : Text} {d : Document} (hparse : Yaml.parse content = .ok (some d))
    {s : Settings} (h : ¬ (yaml content s).2.refuses) : decode s d = .ok ((yaml content s).1, []) := by
  rw [yaml_of_document hparse] at h ⊢
  cases hdecode : decode s d with
  | error why => simp [hdecode, Verdict.refuses] at h
  | ok progress =>
      obtain ⟨read, complaints⟩ := progress
      cases complaints with
      | nil => rfl
      | cons m more => simp [hdecode, Verdict.refuses] at h

/-- The decoder for settings documents reads what these list. -/
theorem yaml_reads : yaml.Reads listing where
  untouched content l hl s f hno := by
    rcases listing_cases hl with ⟨hparse, -⟩ | ⟨d, hparse, -, hlists⟩
    · rw [yaml_of_nothing hparse]
    · rcases yaml_fst hparse s with hsame | ⟨complaints, hdecode⟩
      · rw [hsame]
      · refine decode_untouched hdecode fun pair hmem hpair => ?_
        rw [pairsOf_of_lists hlists] at hmem
        obtain ⟨p, hp, hlisted⟩ := hlists.exists_pair hmem
        exact hno p hp ((Pair.names_iff hlisted).1 hpair)
  overwritten content l hl s before p after f v hsplit hkey _ hoffer hdone := by
    rcases listing_cases hl with ⟨hparse, -⟩ | ⟨d, hparse, -, hlists⟩
    · rw [yaml_of_nothing hparse] at hdone
      cases hdone
    · have hdecode := decode_of_not_refused hparse (s := s) (by simp [hdone, Verdict.refuses])
      obtain ⟨g, hg, -, hvalue⟩ := (decode_listed hlists hdecode).1 p (by simp [hsplit])
      obtain rfl : f = g := Field.name_inj (hkey.symm.trans hg)
      exact hvalue v hoffer
  unknown content l hl s p hp hno := by
    rcases listing_cases hl with ⟨-, rfl⟩ | ⟨d, hparse, -, hlists⟩
    · cases hp
    · refine Classical.byContradiction fun h => ?_
      obtain ⟨f, hf, -⟩ := (decode_listed hlists (decode_of_not_refused hparse h)).1 p hp
      exact hno f hf
  repeated content l hl s hrepeated := by
    rcases listing_cases hl with ⟨-, rfl⟩ | ⟨d, hparse, -, hlists⟩
    · exact absurd List.nodup_nil hrepeated
    · refine Classical.byContradiction fun h => hrepeated ?_
      exact (decode_listed hlists (decode_of_not_refused hparse h)).2
  mismatched content l hl s p hp f hkey hoffer := by
    rcases listing_cases hl with ⟨-, rfl⟩ | ⟨d, hparse, -, hlists⟩
    · cases hp
    · refine Classical.byContradiction fun h => ?_
      obtain ⟨g, hg, hmatch, -⟩ := (decode_listed hlists (decode_of_not_refused hparse h)).1 p hp
      obtain rfl : f = g := Field.name_inj (hkey.symm.trans hg)
      exact hmatch hoffer
  ended content s := by
    constructor
    · intro h
      cases hparse : Yaml.parse content with
      | error why =>
          unfold yaml at h
          rw [hparse] at h
          cases h
      | ok document =>
          cases document with
          | none =>
              unfold listing
              rw [hparse]
          | some d =>
              rw [yaml_of_document hparse] at h
              repeat' split at h
              all_goals cases h
    · intro h
      rcases listing_cases h with ⟨hparse, -⟩ | ⟨d, -, hne, -⟩
      · rw [yaml_of_nothing hparse]
      · exact absurd rfl hne

end Settings

end LetScript
