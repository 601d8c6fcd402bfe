import LetScript.Proofs.Lexical.Scan

/-!
# Longer sources

A piece that the scanner has found stays as it is when the source goes on behind it with a line feed, or
with a quotation mark if something of the old source is left in between. So a source that goes on in such
a way is scanned as before, up to where it ended or came to a dead end.
-/

namespace LetScript.Lexical

open Token Glyph

/-! ## Seams -/

/-- The glyphs that follow cannot become part of a piece, given what it leaves of those before them. -/
inductive Seam (left : List Glyph) : List Glyph → Prop
  | nothing : Seam left []
  | newline {hs : List Glyph} : Seam left (.char '\n' :: hs)
  /-- A quotation mark would become part of a comment, but a comment leaves nothing. -/
  | quote {hs : List Glyph} : left ≠ [] → Seam left (.char '"' :: hs)

theorem Seam.mono {left left' hs : List Glyph} (h : Seam left hs) (hleft : left ≠ [] → left' ≠ []) :
    Seam left' hs := by
  cases h with
  | nothing => exact .nothing
  | newline => exact .newline
  | quote hne => exact .quote (hleft hne)

theorem Seam.leadingChars_eq_nil {left hs : List Glyph} (h : Seam left hs) (inClass : Char → Bool)
    (hnewline : inClass '\n' = false) (hquote : inClass '"' = false) : leadingChars inClass hs = [] := by
  cases h <;> simp [leadingChars, hnewline, hquote]

theorem leadingChars_append_stop {inClass : Char → Bool} {hs : List Glyph}
    (h : leadingChars inClass hs = []) (gs : List Glyph) :
    leadingChars inClass (gs ++ hs) = leadingChars inClass gs := by
  induction gs with
  | nil => exact h
  | cons g gs ih =>
      cases g with
      | stray b => rfl
      | char c => simp [leadingChars, ih]

theorem Seam.fractionDigits_append {left hs : List Glyph} (h : Seam left hs) (gs : List Glyph) :
    fractionDigits (gs ++ hs) = fractionDigits gs := by
  have hdigits := h.leadingChars_eq_nil Text.isAsciiDigit (by decide) (by decide)
  cases gs with
  | nil => cases h <;> rfl
  | cons g gs =>
      by_cases hg : g = .char '.'
      · subst hg
        exact leadingChars_append_stop hdigits gs
      · unfold fractionDigits
        split
        · rename_i heq
          exact absurd (List.cons.inj heq).1 hg
        · split
          · rename_i heq
            exact absurd (List.cons.inj heq).1 hg
          · rfl

theorem Seam.numberPiece_append {left hs : List Glyph} (h : Seam left hs) (c : Char) (gs : List Glyph) :
    numberPiece c (gs ++ hs) = numberPiece c gs := by
  have hdigits := h.leadingChars_eq_nil Text.isAsciiDigit (by decide) (by decide)
  have hle : (leadingChars Text.isAsciiDigit gs).length ≤ gs.length := by
    simpa using (leadingChars_isPrefix Text.isAsciiDigit gs).length_le
  simp only [numberPiece]
  rw [leadingChars_append_stop hdigits, List.drop_append_of_le_length hle, h.fractionDigits_append]

theorem Seam.wordPiece_append {left hs : List Glyph} (h : Seam left hs) (c : Char) (gs : List Glyph) :
    wordPiece c (gs ++ hs) = wordPiece c gs := by
  have hword := h.leadingChars_eq_nil isWordChar (by decide) (by decide)
  simp only [wordPiece]
  rw [leadingChars_append_stop hword]

/-- A comment ends at the first line feed, whatever follows. -/
theorem Seam.takeWhile_append {gs hs : List Glyph}
    (h : Seam (gs.drop (gs.takeWhile (· ≠ .char '\n')).length) hs) :
    (gs ++ hs).takeWhile (· ≠ .char '\n') = gs.takeWhile (· ≠ .char '\n') := by
  by_cases hmem : .char '\n' ∈ gs
  · obtain ⟨body, tail, rfl, hbody⟩ := List.eq_append_cons_of_mem hmem
    rw [List.append_assoc, List.cons_append, takeWhile_append_stop hbody, takeWhile_append_stop hbody]
  · rw [takeWhile_eq_self hmem] at h ⊢
    cases h with
    | nothing => rw [List.append_nil, takeWhile_eq_self hmem]
    | newline => rw [takeWhile_append_stop hmem]
    | quote hleft => simp at hleft

theorem slashPiece_append {gs hs : List Glyph} (h : Seam (gs.drop (slashPiece gs).2) hs) :
    slashPiece (gs ++ hs) = slashPiece gs := by
  cases gs with
  | nil => cases h <;> rfl
  | cons g gs =>
      by_cases hg : g = .char '/'
      · subst hg
        simp only [slashPiece, Nat.add_comm 1, List.drop_succ_cons] at h
        simp only [slashPiece, List.cons_append, h.takeWhile_append]
      · have hslash : ∀ more, slashPiece (g :: more) = (.token .slash .none, 0) := by
          intro more
          unfold slashPiece
          split
          · rename_i heq
            exact absurd (List.cons.inj heq).1 hg
          · rfl
        rw [List.cons_append, hslash, hslash]

/-- A string that is closed ends there, whatever follows. -/
theorem stringPiece_append {gs : List Glyph} {x : Piece × Nat} (h : stringPiece gs = .ok x)
    (hs : List Glyph) : stringPiece (gs ++ hs) = .ok x := by
  have hmem : .char '"' ∈ gs := by
    refine Decidable.byContradiction fun hno => ?_
    rw [stringPiece, takeWhile_eq_self hno, if_neg (Nat.lt_irrefl _)] at h
    cases h
  obtain ⟨body, tail, rfl, hbody⟩ := List.eq_append_cons_of_mem hmem
  simp only [stringPiece] at h ⊢
  rw [List.append_assoc, List.cons_append, takeWhile_append_stop hbody]
  rw [takeWhile_append_stop hbody] at h
  simpa using h

/-- A piece stays as it is if the source goes on behind a seam. -/
theorem piece_append {offset : Nat} {g : Glyph} {gs hs : List Glyph} {p : Piece} {reach : Nat}
    (h : piece offset g gs = .ok (p, reach)) (hseam : Seam (gs.drop reach) hs) :
    piece offset g (gs ++ hs) = .ok (p, reach) := by
  cases g with
  | stray b => cases h
  | char c =>
      simp only [piece] at h ⊢
      split at h
      · exact h
      · rename_i short long _ _
        have hhead : gs.head? = some (.char '=') ↔ (gs ++ hs).head? = some (.char '=') := by
          cases gs with
          | nil => cases hseam <;> simp
          | cons g gs => rfl
        simp only [← hhead]
        exact h
      · split at h
        · rename_i hc
          simp only [Except.ok.injEq] at h
          rw [if_pos hc, slashPiece_append (by rwa [h]), h]
        · rename_i hc
          rw [if_neg hc]
          split at h
          · rename_i hquote
            rw [if_pos hquote]
            exact stringPiece_append h hs
          · rename_i hquote
            rwa [if_neg hquote, hseam.numberPiece_append, hseam.wordPiece_append]

/-- A fault is that of a string which is not closed, or depends on the first glyph alone. -/
theorem piece_error_cases {offset : Nat} {g : Glyph} {gs : List Glyph} {fault : Fault}
    (h : piece offset g gs = .error fault) :
    (fault.incomplete = false ∧ ∀ hs, piece offset g hs = .error fault) ∨
      (g = .char '"' ∧ fault = .unterminatedString ∧ .char '"' ∉ gs) := by
  cases g with
  | stray b =>
      cases h
      exact Or.inl ⟨rfl, fun _ => rfl⟩
  | char c =>
      simp only [piece] at h ⊢
      split at h
      · cases h
      · split at h <;> cases h
      · split at h
        · cases h
        · split at h
          · rename_i hquote
            refine Or.inr ⟨by rw [hquote], ?_⟩
            simp only [stringPiece] at h
            split at h <;> cases h
            refine ⟨rfl, fun hmem => ?_⟩
            obtain ⟨body, tail, rfl, hbody⟩ := List.eq_append_cons_of_mem hmem
            rename_i hlength
            rw [takeWhile_append_stop hbody] at hlength
            simp at hlength
          · left
            split at h
            · cases h
            · split at h
              · cases h
              · split at h
                · cases h
                · split at h <;> cases h <;> simp_all [Fault.incomplete]

theorem slashPiece_reach_le (gs : List Glyph) : (slashPiece gs).2 ≤ gs.length := by
  unfold slashPiece
  split
  · rename_i rest
    have hle := (List.takeWhile_prefix (· ≠ .char '\n') (l := rest)).length_le
    simp only [List.length_cons]
    omega
  · exact Nat.zero_le _

theorem stringPiece_reach_le {gs : List Glyph} {p : Piece} {reach : Nat}
    (h : stringPiece gs = .ok (p, reach)) : reach ≤ gs.length := by
  simp only [stringPiece] at h
  split at h
  · cases h
    assumption
  · cases h

theorem numberPiece_reach_le (c : Char) (gs : List Glyph) : (numberPiece c gs).2 ≤ gs.length := by
  have hwhole : (leadingChars Text.isAsciiDigit gs).length ≤ gs.length := by
    simpa using (leadingChars_isPrefix Text.isAsciiDigit gs).length_le
  have hpart : ∀ hs, fractionDigits hs ≠ [] → 1 + (fractionDigits hs).length ≤ hs.length := by
    intro hs hne
    unfold fractionDigits at hne ⊢
    split at hne
    · rename_i rest
      have hle := (leadingChars_isPrefix Text.isAsciiDigit rest).length_le
      simp only [List.length_map] at hle
      simp only [List.length_cons]
      omega
    · exact absurd rfl hne
  simp only [numberPiece]
  split
  · exact hwhole
  · rename_i hne
    have hle := hpart _ hne
    rw [List.length_drop] at hle
    omega

/-- A piece does not reach beyond the glyphs that there are. -/
theorem piece_reach_le {offset : Nat} {g : Glyph} {gs : List Glyph} {p : Piece} {reach : Nat}
    (h : piece offset g gs = .ok (p, reach)) : reach ≤ gs.length := by
  cases g with
  | stray b => cases h
  | char c =>
      simp only [piece] at h
      split at h
      · cases h
        exact Nat.zero_le _
      · split at h
        · rename_i hhead
          cases h
          obtain ⟨more, rfl⟩ := List.head?_eq_some_iff.1 hhead
          simp
        · cases h
          exact Nat.zero_le _
      · split at h
        · simp only [Except.ok.injEq] at h
          have hle := slashPiece_reach_le gs
          rwa [h] at hle
        · split at h
          · exact stringPiece_reach_le h
          · split at h
            · cases h
              exact Nat.zero_le _
            · split at h
              · simp only [Except.ok.injEq] at h
                have hle := numberPiece_reach_le c gs
                rwa [h] at hle
              · split at h
                · simp only [wordPiece, Except.ok.injEq, Prod.mk.injEq] at h
                  have hle := (leadingChars_isPrefix isWordChar gs).length_le
                  rwa [List.length_map, h.2] at hle
                · split at h <;> cases h

/-! ## Dead ends -/

/-- The scanner goes from piece to piece until nothing is left, or until it finds a fault. If the source
goes on behind a seam, it gets to the same place in the same way. -/
theorem exists_stop (line offset : Nat) (gs : List Glyph) :
    ∃ done left tokens, gs = done ++ left ∧
      (left = [] ∨ ∃ g more fault, left = g :: more ∧
        piece (offset + (done.flatMap bytes).length) g more = .error fault) ∧
      ∀ source hs, Seam left hs →
        scanFrom source line offset (gs ++ hs) =
          (scanFrom source (line + lineFeeds done) (offset + (done.flatMap bytes).length)
            (left ++ hs)).map (tokens ++ ·) := by
  induction hn : gs.length using Nat.strongRecOn generalizing gs line offset with
  | ind n ih =>
      cases gs with
      | nil =>
          refine ⟨[], [], [], rfl, Or.inl rfl, fun source hs _ => ?_⟩
          exact (congrFun Except.map_id _).symm
      | cons g rest =>
          cases hpiece : piece offset g rest with
          | error fault =>
              refine ⟨[], g :: rest, [], rfl, Or.inr ⟨g, rest, fault, rfl, hpiece⟩, fun source hs _ => ?_⟩
              exact (congrFun Except.map_id _).symm
          | ok found =>
              obtain ⟨p, reach⟩ := found
              have hle := piece_reach_le hpiece
              -- what is behind the piece is shorter
              have hlt : (rest.drop reach).length < n := by
                rw [← hn, List.length_drop, List.length_cons]
                omega
              obtain ⟨done, left, tokens, hdrop, hend, hscan⟩ :=
                ih _ hlt (line + lineFeeds (g :: rest.take reach))
                  (offset + ((g :: rest.take reach).flatMap bytes).length) (rest.drop reach) rfl
              have hrest : g :: rest = g :: rest.take reach ++ done ++ left := by
                rw [List.append_assoc, ← hdrop, List.cons_append, List.take_append_drop]
              have hfeeds : lineFeeds (g :: rest.take reach ++ done) =
                  lineFeeds (g :: rest.take reach) + lineFeeds done := List.count_append
              have hbytes : ((g :: rest.take reach ++ done).flatMap bytes).length =
                  ((g :: rest.take reach).flatMap bytes).length + (done.flatMap bytes).length := by
                rw [List.flatMap_append, List.length_append]
              refine ⟨g :: rest.take reach ++ done, left,
                p.tokens line (g :: rest.take reach) ++ tokens, hrest, ?_, fun source hs hseam => ?_⟩
              · rw [hbytes, ← Nat.add_assoc]
                exact hend
              · have hseam' : Seam (rest.drop reach) hs := hseam.mono fun hne => by simp [hdrop, hne]
                rw [List.cons_append, scanFrom, piece_append hpiece hseam']
                simp only [List.take_append_of_le_length hle, List.drop_append_of_le_length hle]
                rw [hscan source hs hseam, hfeeds, hbytes, ← Nat.add_assoc, ← Nat.add_assoc]
                cases scanFrom source _ _ (left ++ hs) with
                | error d => rfl
                | ok more => simp [Except.map]

/-! ## Longer texts -/

theorem decode_append_newline (a b : Text) :
    decode (a ++ Text.newline :: b) = decode a ++ .char '\n' :: decode b := by
  rw [decode_append_of_ascii a (by decide), decode_cons_of_ofChar ofChar_newline]

theorem decode_append_quote (a b : Text) :
    decode (a ++ quote :: b) = decode a ++ .char '"' :: decode b := by
  rw [decode_append_of_ascii a (by decide), decode_cons_of_ofChar ofChar_quote]

theorem lineFeeds_decode (a : Text) : lineFeeds (decode a) = a.count Text.newline := by
  rw [lineFeeds_eq_count fun _ => isProper_of_mem_decode, bytes_decode]

theorem scanFrom_newline (source : Text) (line offset : Nat) (b : Text) :
    scanFrom source line offset (.char '\n' :: decode b) =
      scanFrom source (line + 1) (offset + 1) (decode b) := by
  rw [← decode_cons_of_ofChar ofChar_newline]
  exact scanFrom_gap (reads_blank (by decide) b) source line offset

/-- How a text is scanned, and what becomes of that if it goes on. -/
inductive Scanned (source a : Text) : Prop
  /-- All of it is tokens and gaps, also before a line feed. -/
  | whole (tokens : List Token) :
      scan source a = .ok (tokens ++ [endOfInput (1 + a.count Text.newline)]) →
      (∀ b, scan source (a ++ Text.newline :: b) =
        (scanFrom source (1 + a.count Text.newline + 1) (a.length + 1) (decode b)).map (tokens ++ ·)) →
      Scanned source a
  /-- There is a dead end in it, also before a line feed and a quotation mark. -/
  | dead {d : Diagnostic} :
      d.fault.incomplete = false → scan source a = .error d →
      (∀ b, scan source (a ++ Text.newline :: b) = .error d) →
      (∀ b, scan source (a ++ quote :: b) = .error d) → Scanned source a
  /-- It ends in a string, which a line feed does not close and a quotation mark does. -/
  | unclosed {d : Diagnostic} :
      d.fault.incomplete → scan source a = .error d → scan source (a ++ [Text.newline]) = .error d →
      (∃ tokens, scan source (a ++ [quote]) = .ok tokens) → Scanned source a

theorem scanned (source a : Text) : Scanned source a := by
  obtain ⟨done, left, tokens, hdone, hend, hscan⟩ := exists_stop 1 0 (decode a)
  have hnothing := hscan source [] .nothing
  rw [List.append_nil, List.append_nil] at hnothing
  rcases hend with rfl | ⟨g, more, fault, rfl, hpiece⟩
  · -- nothing is left: the scanner has counted all lines and bytes of the text
    rw [List.append_nil] at hdone
    rw [← hdone, lineFeeds_decode, bytes_decode, Nat.zero_add] at hnothing hscan
    refine .whole tokens ?_ fun b => ?_
    · rw [scan, hnothing, scanFrom]
      rfl
    · rw [scan, decode_append_newline, hscan source _ .newline, List.nil_append, scanFrom_newline]
  · rcases piece_error_cases hpiece with ⟨hfault, hstays⟩ | ⟨rfl, rfl, hmore⟩
    · refine .dead (d := ⟨.atLine source (1 + lineFeeds done), fault⟩) hfault ?_ (fun b => ?_) fun b => ?_
      · rw [scan, hnothing, scanFrom, hstays]
        rfl
      · rw [scan, decode_append_newline, hscan source _ .newline, List.cons_append, scanFrom, hstays]
        rfl
      · rw [scan, decode_append_quote, hscan source _ (.quote (by simp)), List.cons_append, scanFrom, hstays]
        rfl
    · refine .unclosed (d := ⟨.atLine source (1 + lineFeeds done), .unterminatedString⟩) rfl ?_ ?_ ?_
      · rw [scan, hnothing, scanFrom, hpiece]
        rfl
      · have hopen : .char '"' ∉ more ++ [.char '\n'] := by simp [hmore]
        rw [scan, decode_append_newline, hscan source _ .newline, List.cons_append, decode_nil, scanFrom,
          piece_quote, stringPiece, takeWhile_eq_self hopen, if_neg (Nat.lt_irrefl _)]
        rfl
      · have hclosed : piece (0 + (done.flatMap bytes).length) (.char '"') (more ++ [.char '"']) =
            .ok (.token .string (.text (more.flatMap bytes)), more.length + 1) := by
          rw [piece_quote, stringPiece, takeWhile_append_stop hmore, if_pos (by simp)]
        have hdrop : (more ++ [Glyph.char '"']).drop (more.length + 1) = [] := by simp
        rw [scan, decode_append_quote, hscan source _ (.quote (by simp)), List.cons_append, decode_nil,
          scanFrom, hclosed]
        simp only [hdrop]
        rw [scanFrom]
        exact ⟨_, rfl⟩

end LetScript.Lexical
