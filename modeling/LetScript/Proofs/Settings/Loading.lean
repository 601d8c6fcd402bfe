import LetScript.Proofs.Settings.Listing
import LetScript.Proofs.Settings.Order
import LetScript.Settings.Load

/-!
# Loading as a whole

Loading is all or nothing: either there is an error, and the settings are the default ones, or what the file lists
has been laid over these as a whole. This holds with any decoder that is as good as its word.
-/

namespace LetScript

namespace Settings

theorem validate_eq_ok {path : Text} {s checked : Settings} :
    validate path s = .ok checked ↔ checked = s ∧ s.sourceName ≠ [] ∧ 0 ≤ s.maxEchoWidth := by
  unfold validate
  split
  · rename_i hname
    simp [hname]
  · rename_i hname
    split
    · rename_i hwidth
      simp [hwidth]
    · rename_i hwidth
      simp [hname, eq_comm, Int.not_lt.1 hwidth]

/-! ## The content of a file -/

section

variable {decoder : Decoder} {s s' : Settings} {path content : Text}

/-- A content is accepted exactly if there is no document in it, or it has been read and the settings after it pass
the check. -/
theorem readOver_eq_ok :
    readOver decoder s path content = (s', none) ↔
      decoder content s = (s', .nothing) ∨
        decoder content s = (s', .done) ∧ s'.sourceName ≠ [] ∧ 0 ≤ s'.maxEchoWidth := by
  unfold readOver
  constructor
  · intro h
    split at h
    · rename_i read hread
      cases h
      exact .inl hread
    · cases h
    · cases h
    · rename_i read hread
      split at h
      · cases h
      · rename_i checked hcheck
        obtain ⟨rfl, hvalid⟩ := validate_eq_ok.1 hcheck
        cases h
        exact .inr ⟨hread, hvalid⟩
  · rintro (hread | ⟨hread, hvalid⟩)
    · rw [hread]
    · rw [hread]
      simp only [validate_eq_ok.2 ⟨rfl, hvalid⟩]

/-- Whatever is wrong with the content of a file, nothing of it is kept. -/
theorem readOver_default_of_error (decoder : Decoder) (s : Settings) (path content : Text)
    (h : (readOver decoder s path content).2.isSome) : (readOver decoder s path content).1 = default := by
  unfold readOver at h ⊢
  split
  · rename_i hread
    simp [hread] at h
  · rfl
  · rfl
  · split
    · rfl
    · rename_i hread _ _ hcheck
      simp [hread, hcheck] at h

/-- A content of a simple form that is accepted is laid over the settings. -/
theorem laidOver_of_readOver {view : View} {l : Listing} (hd : decoder.Reads view) (hview : view content = some l)
    (h : readOver decoder s path content = (s', none)) : l.LaidOver s s' := by
  obtain ⟨verdict, hread, haccepts⟩ : ∃ verdict, decoder content s = (s', verdict) ∧ verdict.refuses = false := by
    rcases readOver_eq_ok.1 h with hread | ⟨hread, -⟩
    · exact ⟨_, hread, rfl⟩
    · exact ⟨_, hread, rfl⟩
  have hlaid := hd.laidOver (s := s) hview (by rw [hread]; exact haccepts)
  rwa [hread] at hlaid

/-- A content without a document changes nothing. -/
theorem decoder_of_nothing {view : View} (hd : decoder.Reads view) (hview : view content = some .nothing)
    (s : Settings) : decoder content s = (s, .nothing) := by
  refine Prod.ext (ext_get fun f => ?_) ((hd.ended content s).2 hview)
  exact hd.untouched content .nothing hview s f (by simp [Listing.all])

/-- The settings after a content that is accepted pass the check, if those before it do. -/
theorem valid_of_readOver {view : View} (hd : decoder.Reads view) (h : readOver decoder s path content = (s', none))
    (hs : s.sourceName ≠ [] ∧ 0 ≤ s.maxEchoWidth) : s'.sourceName ≠ [] ∧ 0 ≤ s'.maxEchoWidth := by
  rcases readOver_eq_ok.1 h with hread | ⟨-, hvalid⟩
  · -- a content that holds nothing is not checked, but it leaves the settings as they were
    have hview := (hd.ended content s).1 (by rw [hread])
    rw [decoder_of_nothing hd hview s] at hread
    cases hread
    exact hs
  · exact hvalid

end

/-! ## Files -/

variable {decoder : Decoder}

theorem load_content {path : Text} (h : path ≠ []) (required : Bool) (content : Text) :
    load path required (.content content) decoder = readOver decoder default path content := by
  simp only [load, h, ↓reduceIte]

/-- There is nothing to read, or the file cannot be read, or its content is read over the default settings. -/
theorem load_cases (path : Text) (required : Bool) (outcome : FileRead) (decoder : Decoder) :
    (path = [] ∨ outcome = .missing ∧ required = false) ∧ load path required outcome decoder = (default, none) ∨
    ((outcome = .missing → required = true) ∧ ∀ content, outcome ≠ .content content) ∧
      (∃ e, load path required outcome decoder = (default, some e)) ∨
    path ≠ [] ∧ ∃ content, outcome = .content content := by
  by_cases hpath : path = []
  · exact .inl ⟨.inl hpath, by simp only [load, hpath, ↓reduceIte]⟩
  · cases outcome with
    | missing =>
        cases required with
        | true => exact .inr (.inl ⟨⟨fun _ => rfl, nofun⟩, _, by simp only [load, hpath, ↓reduceIte]; rfl⟩)
        | false => exact .inl ⟨.inr ⟨rfl, rfl⟩, by simp only [load, hpath, ↓reduceIte]; rfl⟩
    | notOpened cause =>
        exact .inr (.inl ⟨⟨nofun, nofun⟩, _, by simp only [load, hpath, ↓reduceIte]; rfl⟩)
    | notRead cause =>
        exact .inr (.inl ⟨⟨nofun, nofun⟩, _, by simp only [load, hpath, ↓reduceIte]; rfl⟩)
    | content content => exact .inr (.inr ⟨hpath, content, rfl⟩)

/-- A settings document that lists the same scalars in another order is loaded alike, nulls included. -/
theorem load_perm {path path' content content' : Text} {entries entries' : List Entry} {s : Settings}
    (h : entriesIn content = some entries) (h' : entriesIn content' = some entries') (hperm : entries.Perm entries')
    (hpath : path ≠ []) (hpath' : path' ≠ []) {required : Bool} (required' : Bool)
    (hload : load path required (.content content) = (s, none)) :
    load path' required' (.content content') = (s, none) := by
  rw [load_content hpath] at hload
  rw [load_content hpath']
  rcases readOver_eq_ok.1 hload with hread | ⟨hread, hvalid⟩
  · obtain ⟨d, hparse, -⟩ := exists_document_of_entriesIn h
    rw [yaml_of_document hparse] at hread
    repeat' split at hread
    all_goals cases hread
  · exact readOver_eq_ok.2 (.inr ⟨yaml_perm h h' hperm hread, hvalid⟩)

/-- Loading is all or nothing. With an error, the settings are the default ones. Without, they pass the check, and
are the default ones if there is no file, or else what the file lists over these; a file that lists the same in
another order gives every setting the same, but for nulls. A file without a document is no error, and a missing
file is one exactly if it is required. -/
theorem load_is_all_or_nothing {decoder : Decoder} {view : View} (hd : decoder.Reads view) (path : Text)
    (required : Bool) (outcome : FileRead) :
    let loaded := load path required outcome decoder
    (loaded.2.isSome → loaded.1 = default) ∧
    (∀ s, loaded = (s, none) →
      s.sourceName ≠ [] ∧ 0 ≤ s.maxEchoWidth ∧
      ((path = [] ∨ outcome = .missing) ∧ s = default ∨
        ∃ content, outcome = .content content ∧ ∀ l, view content = some l → l.LaidOver default s ∧
          ∀ path' required' content' l' s', path' ≠ [] → view content' = some l' → l.all.Perm l'.all →
            load path' required' (.content content') decoder = (s', none) →
            ∀ f : Field, (∀ p ∈ l.all, p.key = f.name → p.offer f ≠ .null) → s'.get f = s.get f)) ∧
    (∀ content, outcome = .content content → view content = some .nothing → loaded = (default, none)) ∧
    (path ≠ [] → outcome = .missing → (loaded.2.isSome ↔ required = true)) := by
  intro loaded
  have hloaded : loaded = load path required outcome decoder := rfl
  rcases load_cases path required outcome decoder with
    ⟨hnone, hload⟩ | ⟨⟨hmissing, hno⟩, e, hload⟩ | ⟨hpath, content, rfl⟩
  · rw [hloaded, hload]
    refine ⟨fun _ => rfl, fun s hs => ?_, fun _ _ _ => rfl, fun hpath _ => ?_⟩
    · cases hs
      refine ⟨by decide, by decide, .inl ⟨hnone.imp_right And.left, rfl⟩⟩
    · simp [(hnone.resolve_left hpath).2]
  · rw [hloaded, hload]
    refine ⟨fun _ => rfl, fun s hs => ?_, fun content h => absurd h (hno content), fun _ h => ?_⟩
    · cases hs
    · simp [hmissing h]
  · rw [hloaded, load_content hpath]
    refine ⟨readOver_default_of_error decoder default path content, fun s hs => ?_, ?_, fun _ h => ?_⟩
    · obtain ⟨hname, hwidth⟩ := valid_of_readOver hd hs (by decide)
      refine ⟨hname, hwidth, .inr ⟨content, rfl, fun l hview => ⟨laidOver_of_readOver hd hview hs, ?_⟩⟩⟩
      intro path' required' content' l' s' hpath' hview' hperm hs' f hnull
      rw [load_content hpath'] at hs'
      exact (laidOver_of_readOver hd hview hs).get_eq (laidOver_of_readOver hd hview' hs') hperm hnull
    · rintro _ ⟨⟩ hview
      exact readOver_eq_ok.2 (.inl (decoder_of_nothing hd hview default))
    · cases h

/-- Two settings in either order, a fault behind a setting that has been read by then, and a file with a remark. -/
theorem load_is_all_or_nothing_swapped :
    let width := Text.ofString "max_echo_width: 40\n"
    let prompt := Text.ofString "prompt: '> '\n"
    let faulty := width ++ Text.ofString "history: 7\n"
    yaml.Reads listing ∧
    (∃ s, load [99] true (.content (width ++ prompt)) = (s, none) ∧ s.maxEchoWidth = 40 ∧
      s.historyFile = default.historyFile ∧ load [99] false (.content (prompt ++ width)) = (s, none)) ∧
    ((yaml faulty default).1.maxEchoWidth = 40 ∧ (load [99] true (.content faulty)).1 = default) ∧
    load [99] true (.content (Text.ofString "# nothing\n")) = (default, none) := by
  intro width prompt faulty
  refine ⟨yaml_reads, ?_, ⟨by decide +kernel, ?_⟩, ?_⟩
  · obtain ⟨l, hview, hlisted⟩ : ∃ l, listing (width ++ prompt) = some l ∧
        decide ((∃ p ∈ l.all, p.key = Field.maxEchoWidth.name ∧ p.offer .maxEchoWidth = .value (40 : Int)) ∧
          ∀ p ∈ l.all, p.key ≠ Field.historyFile.name) = true :=
      (Option.any_eq_true _ _).1 (by decide +kernel)
    obtain ⟨⟨p, hp, hkey, hoffer⟩, hno⟩ := of_decide_eq_true hlisted
    have hnone : (load [99] true (.content (width ++ prompt))).2.isNone := by decide +kernel
    have hall := (load_is_all_or_nothing yaml_reads [99] true (.content (width ++ prompt))).2.1
    generalize hload : load [99] true (.content (width ++ prompt)) = loaded at hnone hall
    obtain ⟨s, error⟩ := loaded
    obtain rfl : error = none := Option.isNone_iff_eq_none.1 hnone
    obtain ⟨-, -, ⟨hpath | hmissing, -⟩ | ⟨content, hcontent, hlaid⟩⟩ := hall s rfl
    · cases hpath
    · cases hmissing
    · cases hcontent
      obtain ⟨hover, -⟩ := hlaid l hview
      obtain ⟨f, hf, -, hvalue⟩ := hover.listed p hp
      obtain rfl : Field.maxEchoWidth = f := Field.name_inj (hkey.symm.trans hf)
      let entry (key tag text : String) : Entry :=
        ⟨Yaml.Tag.text, Text.ofString key, Text.ofString tag, Text.ofString text⟩
      have hperm : [entry "max_echo_width" "!!int" "40", entry "prompt" "!!str" "> "].Perm
          [entry "prompt" "!!str" "> ", entry "max_echo_width" "!!int" "40"] := .swap _ _ _
      exact ⟨s, rfl, hvalue _ hoffer, hover.unlisted .historyFile hno,
        load_perm (by decide +kernel) (by decide +kernel) hperm (by decide) (by decide) false hload⟩
  · exact (load_is_all_or_nothing yaml_reads [99] true (.content faulty)).1 (by decide +kernel)
  · obtain ⟨l, hview, hnothing⟩ : ∃ l, listing (Text.ofString "# nothing\n") = some l ∧ l.isNothing :=
      (Option.any_eq_true _ _).1 (by decide +kernel)
    cases l with
    | pairs => cases hnothing
    | nothing =>
        exact (load_is_all_or_nothing yaml_reads [99] true (.content (Text.ofString "# nothing\n"))).2.2.1 _ rfl hview

end Settings

end LetScript
