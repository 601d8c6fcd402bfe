import LetScript.Token.Lexer

/-!
# Reading glyphs

Which bytes the glyphs of a text stand for, and where a text may be cut so that its parts have the same
glyphs as the whole: after a character, and before an ASCII byte. The encodings of characters are told
apart by their first byte and the bytes after it, so that at most one character starts a text.
-/

namespace LetScript

namespace Glyph

/-! ## Encodings -/

theorem ofChar_ne_nil (c : Char) : Text.ofChar c ≠ [] := String.utf8EncodeChar_ne_nil

theorem toNat_lt (c : Char) : c.toNat < 1114112 := by
  have hvalid := c.valid
  rw [UInt32.isValidChar, Nat.isValidChar] at hvalid
  have hval : c.val.toNat = c.toNat := rfl
  omega

/-- The bytes of a character name it, whatever follows them. -/
theorem candidate_ofChar (c : Char) (rest : Text) {b : UInt8} {bs : Text}
    (h : Text.ofChar c = b :: bs) : candidate b (bs ++ rest) = c := by
  have hc : Char.ofNat c.toNat = c := Char.ofNat_toNat c
  have hval : c.val.toNat = c.toNat := rfl
  have hlt := toNat_lt c
  simp only [Text.ofChar, String.utf8EncodeChar, hval] at h
  -- one case for each length of an encoding
  split at h
  · cases h
    simp only [candidate, UInt8.toNat_ofNat']
    rw [if_pos (by omega), Nat.mod_eq_of_lt (by omega), hc]
  · split at h
    · cases h
      simp only [candidate, UInt8.toNat_ofNat', follower, List.cons_append, List.getD_cons_zero]
      rw [if_neg (by omega), if_pos (by omega)]
      have heq : (c.toNat / 64 % 32 + 192) % 2 ^ 8 % 32 * 64 + (c.toNat % 64 + 128) % 2 ^ 8 % 64 =
          c.toNat := by omega
      rw [heq, hc]
    · split at h
      · cases h
        simp only [candidate, UInt8.toNat_ofNat', follower, List.cons_append, List.getD_cons_zero,
          List.getD_cons_succ]
        rw [if_neg (by omega), if_neg (by omega), if_pos (by omega)]
        have heq : (c.toNat / 4096 % 16 + 224) % 2 ^ 8 % 16 * 4096 +
            (c.toNat / 64 % 64 + 128) % 2 ^ 8 % 64 * 64 + (c.toNat % 64 + 128) % 2 ^ 8 % 64 =
            c.toNat := by omega
        rw [heq, hc]
      · cases h
        simp only [candidate, UInt8.toNat_ofNat', follower, List.cons_append, List.getD_cons_zero,
          List.getD_cons_succ]
        rw [if_neg (by omega), if_neg (by omega), if_neg (by omega)]
        have heq : (c.toNat / 262144 % 8 + 240) % 2 ^ 8 % 8 * 262144 +
            (c.toNat / 4096 % 64 + 128) % 2 ^ 8 % 64 * 4096 +
            (c.toNat / 64 % 64 + 128) % 2 ^ 8 % 64 * 64 + (c.toNat % 64 + 128) % 2 ^ 8 % 64 =
            c.toNat := by omega
        rw [heq, hc]

/-- An ASCII byte is the encoding of a character by itself, and stands in no other. -/
theorem ofChar_eq_singleton {c : Char} {b : UInt8} (hb : b.toNat < 128) (h : b ∈ Text.ofChar c) :
    Text.ofChar c = [b] := by
  have hval : c.val.toNat = c.toNat := rfl
  simp only [Text.ofChar, String.utf8EncodeChar, hval] at h ⊢
  split at h
  · rename_i hle
    simp only [List.mem_singleton] at h
    simp [hle, h]
  · exfalso
    split at h
    · simp only [List.mem_cons, List.not_mem_nil, or_false] at h
      rcases h with rfl | rfl <;> simp only [UInt8.toNat_ofNat'] at hb <;> omega
    · split at h
      · simp only [List.mem_cons, List.not_mem_nil, or_false] at h
        rcases h with rfl | rfl | rfl <;> simp only [UInt8.toNat_ofNat'] at hb <;> omega
      · simp only [List.mem_cons, List.not_mem_nil, or_false] at h
        rcases h with rfl | rfl | rfl | rfl <;> simp only [UInt8.toNat_ofNat'] at hb <;> omega

theorem ofChar_ofNat {b : UInt8} (hb : b.toNat < 128) : Text.ofChar (Char.ofNat b.toNat) = [b] := by
  have hvalid : b.toNat.isValidChar := by rw [Nat.isValidChar]; omega
  have hval : (Char.ofNat b.toNat).val.toNat = b.toNat := by
    rw [Char.ofNat, dif_pos hvalid]
    rfl
  simp only [Text.ofChar, String.utf8EncodeChar, hval]
  rw [if_pos (by omega)]
  simp

theorem ofChar_injective {c d : Char} (h : Text.ofChar c = Text.ofChar d) : c = d := by
  cases hc : Text.ofChar c with
  | nil => exact absurd hc (ofChar_ne_nil c)
  | cons b bs =>
      rw [← candidate_ofChar c [] hc, ← candidate_ofChar d [] (h ▸ hc)]

/-! ## The first glyph -/

/-- A character is read at the start of a text exactly if its encoding stands there. -/
theorem leading?_eq_some_iff {b : UInt8} {rest : Text} {c : Char} :
    leading? b rest = some c ↔ Text.ofChar c <+: b :: rest := by
  constructor
  · intro h
    exact ⟨_, ofChar_append_of_leading? h⟩
  · rintro ⟨tail, htail⟩
    cases hc : Text.ofChar c with
    | nil => exact absurd hc (ofChar_ne_nil c)
    | cons x xs =>
        rw [hc] at htail
        obtain ⟨rfl, rfl⟩ : x = b ∧ xs ++ tail = rest := by simpa using htail
        have hcand := candidate_ofChar c tail hc
        simp only [leading?, hcand]
        rw [if_pos]
        simp [hc, List.isPrefixOf_iff_prefix]

theorem leading?_eq_none_iff {b : UInt8} {rest : Text} :
    leading? b rest = none ↔ ∀ c, ¬ Text.ofChar c <+: b :: rest := by
  constructor
  · intro h c hc
    rw [leading?_eq_some_iff.2 hc] at h
    cases h
  · intro h
    cases hl : leading? b rest with
    | none => rfl
    | some c => exact absurd (leading?_eq_some_iff.1 hl) (h c)

/-- A character is read where its encoding stands, and the rest is read by itself. -/
theorem decode_ofChar_append (c : Char) (rest : Text) :
    decode (Text.ofChar c ++ rest) = .char c :: decode rest := by
  cases hc : Text.ofChar c with
  | nil => exact absurd hc (ofChar_ne_nil c)
  | cons b bs =>
      have hlead : leading? b (bs ++ rest) = some c := leading?_eq_some_iff.2 ⟨rest, by rw [hc]; rfl⟩
      rw [List.cons_append, decode_cons_char hlead, hc]
      simp

theorem decode_cons_of_ofChar {c : Char} {b : UInt8} (hc : Text.ofChar c = [b]) (rest : Text) :
    decode (b :: rest) = .char c :: decode rest := by
  have happend := decode_ofChar_append c rest
  rwa [hc] at happend

theorem ofChar_newline : Text.ofChar '\n' = [Text.newline] := by decide

theorem decode_chars_append (cs : List Char) (rest : Text) :
    decode (cs.flatMap Text.ofChar ++ rest) = cs.map .char ++ decode rest := by
  induction cs with
  | nil => rfl
  | cons c cs ih =>
      rw [List.flatMap_cons, List.append_assoc, decode_ofChar_append, ih]
      rfl

/-- A glyph that is read at the start of a text stands for its first bytes. -/
theorem eq_of_decode_eq_cons {t : Text} {g : Glyph} {gs : List Glyph} (h : decode t = g :: gs) :
    t = g.bytes ++ gs.flatMap bytes := by
  rw [← bytes_decode t, h]
  rfl

/-- A text may be cut before an ASCII byte: no encoding of a character goes on with one. -/
theorem decode_append_of_ascii (t : Text) {b : UInt8} (hb : b.toNat < 128) (rest : Text) :
    decode (t ++ b :: rest) = decode t ++ decode (b :: rest) := by
  induction hn : t.length using Nat.strongRecOn generalizing t with
  | ind n ih =>
      cases t with
      | nil => rfl
      | cons x xs =>
          cases hl : leading? x xs with
          | some c =>
              obtain ⟨tail, htail⟩ := leading?_eq_some_iff.1 hl
              have hpos := List.length_pos_iff.2 (ofChar_ne_nil c)
              have hlt : tail.length < n := by
                rw [← hn, ← htail, List.length_append]
                omega
              rw [← htail, List.append_assoc, decode_ofChar_append, decode_ofChar_append,
                ih tail.length hlt tail rfl, List.cons_append]
          | none =>
              have hnone : leading? x (xs ++ b :: rest) = none := by
                rw [leading?_eq_none_iff]
                intro c hc
                rcases List.prefix_or_prefix_of_prefix hc (List.prefix_append (x :: xs) (b :: rest))
                  with hshort | ⟨more, hmore⟩
                · exact leading?_eq_none_iff.1 hl c hshort
                · obtain ⟨tail, htail⟩ := hc
                  rw [← hmore, ← List.cons_append, List.append_assoc, List.append_cancel_left_eq]
                    at htail
                  cases more with
                  | nil => exact leading?_eq_none_iff.1 hl c ⟨[], by simpa using hmore.symm⟩
                  | cons y more =>
                      obtain ⟨rfl, -⟩ : y = b ∧ _ := by simpa using htail
                      have hsingle := ofChar_eq_singleton hb (by rw [← hmore]; simp)
                      rw [hsingle] at hmore
                      simpa using congrArg List.length hmore
              rw [List.cons_append, decode_cons_stray hnone, decode_cons_stray hl,
                ih xs.length (by simp [← hn]) xs rfl, List.cons_append]

/-! ## Bytes and glyphs -/

/-- Stray bytes are not ASCII. -/
def IsProper (g : Glyph) : Prop := ∀ b, g = .stray b → 128 ≤ b.toNat

theorem isProper_of_mem_decode {t : Text} {g : Glyph} (h : g ∈ decode t) : g.IsProper := by
  induction hn : t.length using Nat.strongRecOn generalizing t with
  | ind n ih =>
      cases t with
      | nil => cases h
      | cons b rest =>
          cases hl : leading? b rest with
          | some c =>
              rw [decode_cons_char hl, List.mem_cons] at h
              rcases h with rfl | h
              · intro b' hb'
                cases hb'
              · exact ih _ (by simp only [List.length_drop, ← hn, List.length_cons]; omega) h rfl
          | none =>
              rw [decode_cons_stray hl, List.mem_cons] at h
              rcases h with rfl | h
              · intro b' hb'
                cases hb'
                refine Nat.le_of_not_lt fun hlt => ?_
                have hchar := ofChar_ofNat hlt
                exact leading?_eq_none_iff.1 hl _ ⟨rest, by rw [hchar]; rfl⟩
              · exact ih _ (by simp [← hn]) h rfl

/-- An ASCII byte stands only in the glyph of its own character. -/
theorem mem_bytes_iff {g : Glyph} (hg : g.IsProper) {c : Char} {b : UInt8} (hc : Text.ofChar c = [b])
    (hb : b.toNat < 128) : b ∈ g.bytes ↔ g = .char c := by
  cases g with
  | char d =>
      constructor
      · intro h
        rw [ofChar_injective ((ofChar_eq_singleton hb h).trans hc.symm)]
      · intro h
        cases h
        simp [bytes, hc]
  | stray x =>
      have hx := hg x rfl
      simp only [bytes, List.mem_singleton, reduceCtorEq, iff_false]
      rintro rfl
      omega

theorem mem_chars_iff {c : Char} {b : UInt8} (hc : Text.ofChar c = [b]) (hb : b.toNat < 128)
    {cs : List Char} : b ∈ cs.flatMap Text.ofChar ↔ c ∈ cs := by
  rw [List.mem_flatMap]
  constructor
  · rintro ⟨d, hd, hmem⟩
    rwa [ofChar_injective (hc.trans (ofChar_eq_singleton hb hmem).symm)]
  · exact fun h => ⟨c, h, by simp [hc]⟩

/-- An ASCII character is a glyph of a text exactly if its byte is a byte of it. -/
theorem mem_decode_iff {c : Char} {b : UInt8} (hc : Text.ofChar c = [b]) (hb : b.toNat < 128) (t : Text) :
    .char c ∈ decode t ↔ b ∈ t := by
  constructor
  · intro h
    rw [← bytes_decode t, List.mem_flatMap]
    exact ⟨_, h, by simp [bytes, hc]⟩
  · intro h
    rw [← bytes_decode t, List.mem_flatMap] at h
    obtain ⟨g, hg, hbytes⟩ := h
    rw [mem_bytes_iff (isProper_of_mem_decode hg) hc hb] at hbytes
    rwa [← hbytes]

/-- The line feeds among glyphs are those among their bytes. -/
theorem lineFeeds_eq_count {gs : List Glyph} (h : ∀ g ∈ gs, g.IsProper) :
    Token.lineFeeds gs = (gs.flatMap bytes).count Text.newline := by
  induction gs with
  | nil => rfl
  | cons g gs ih =>
      have hg := mem_bytes_iff (h g List.mem_cons_self) ofChar_newline (by decide)
      have ih := ih fun g' hg' => h g' (List.mem_cons_of_mem _ hg')
      simp only [Token.lineFeeds] at ih ⊢
      rw [List.flatMap_cons, List.count_append, List.count_cons, ih]
      by_cases hgc : g = .char '\n'
      · subst hgc
        simp [bytes, ofChar_newline, Nat.add_comm]
      · have hzero : g.bytes.count Text.newline = 0 := by
          rw [List.count_eq_zero]
          exact fun hmem => hgc (hg.1 hmem)
        simp [hzero, hgc]

end Glyph

end LetScript
