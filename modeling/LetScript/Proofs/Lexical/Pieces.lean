import LetScript.Proofs.Lexical.Grammar

/-!
# Pieces

The scanner looks at a text piece by piece. Here the pieces are found for each kind of gap, for each
class of lexemes and for each dead end of the lexical grammar.
-/

namespace LetScript.Lexical

open Token Glyph

/-! ## First characters -/

theorem single?_eq_some_iff {c : Char} {kind : Kind} :
    single? c = some kind ↔ (c, kind) ∈ punctuation ∧ c ≠ '/' := by
  constructor
  · intro h
    unfold single? at h
    split at h <;> cases h <;> decide
  · rintro ⟨h, hc⟩
    simp only [punctuation, List.mem_cons, Prod.mk.injEq, List.not_mem_nil, or_false] at h
    rcases h with ⟨rfl, rfl⟩ | ⟨rfl, rfl⟩ | ⟨rfl, rfl⟩ | ⟨rfl, rfl⟩ | ⟨rfl, rfl⟩ | ⟨rfl, rfl⟩ | ⟨rfl, rfl⟩ |
      ⟨rfl, rfl⟩ | ⟨rfl, rfl⟩ | ⟨rfl, rfl⟩ | ⟨rfl, rfl⟩
    case inr.inr.inr.inr.inr.inr.inr.inr.inr.inr => exact absurd rfl hc
    all_goals rfl

theorem paired?_eq_some_iff {c : Char} {short long : Kind} :
    paired? c = some (short, long) ↔ (c, short, long) ∈ comparisons := by
  constructor
  · intro h
    unfold paired? at h
    split at h <;> cases h <;> decide
  · intro h
    simp only [comparisons, List.mem_cons, Prod.mk.injEq, List.not_mem_nil, or_false] at h
    rcases h with ⟨rfl, rfl, rfl⟩ | ⟨rfl, rfl, rfl⟩ | ⟨rfl, rfl, rfl⟩ | ⟨rfl, rfl, rfl⟩ <;> rfl

theorem single?_eq_none {c : Char} (h : c ∉ punctuation.map Prod.fst) : single? c = none := by
  cases hs : single? c with
  | none => rfl
  | some kind => exact absurd (List.mem_map_of_mem (f := Prod.fst) (single?_eq_some_iff.1 hs).1) h

theorem paired?_eq_none {c : Char} (h : c ∉ comparisons.map Prod.fst) : paired? c = none := by
  cases hp : paired? c with
  | none => rfl
  | some kinds => exact absurd (List.mem_map_of_mem (f := Prod.fst) (paired?_eq_some_iff.1 hp)) h

theorem isGapChar_iff {c : Char} : isGapChar c ↔ c ∈ blankChars := by
  simp [isGapChar, blankChars]

theorem not_mem_of_all {l : List Char} {inClass : Char → Bool} (hl : l.all fun d => !inClass d) {c : Char}
    (hc : inClass c) : c ∉ l := by
  intro hmem
  have hnot := List.all_eq_true.1 hl c hmem
  rw [hc] at hnot
  cases hnot

/-! ## The piece at a first character -/

theorem piece_punctuation {c : Char} {kind : Kind} (h : (c, kind) ∈ punctuation) (hc : c ≠ '/')
    (offset : Nat) (gs : List Glyph) : piece offset (.char c) gs = .ok (.token kind .none, 0) := by
  simp [piece, single?_eq_some_iff.2 ⟨h, hc⟩]

theorem piece_comparison {c : Char} {short long : Kind} (h : (c, short, long) ∈ comparisons)
    (offset : Nat) (gs : List Glyph) :
    piece offset (.char c) gs =
      if gs.head? = some (.char '=') then .ok (.token long .none, 1)
      else .ok (.token short .none, 0) := by
  have hsingle : ∀ p ∈ comparisons, single? p.1 = none := by decide
  simp [piece, hsingle _ h, paired?_eq_some_iff.2 h]

/-- A character that starts neither a gap nor punctuation nor a string can start a number or a word. -/
theorem piece_other {c : Char} (hpunct : c ∉ punctuation.map Prod.fst)
    (hcomp : c ∉ comparisons.map Prod.fst) (hquote : c ≠ '"') (hblank : c ∉ blankChars)
    (offset : Nat) (gs : List Glyph) :
    piece offset (.char c) gs =
      if Text.isAsciiDigit c then .ok (numberPiece c gs)
      else if Text.isLetter c then .ok (wordPiece c gs)
      else if c = '\uFFFD' then .error (.invalidEncoding offset)
      else .error (.unexpectedCharacter c) := by
  have hslash : c ≠ '/' := by
    rintro rfl
    exact hpunct (by decide)
  have hgap : isGapChar c = false := by
    rw [← Bool.not_eq_true, isGapChar_iff]
    exact hblank
  simp [piece, single?_eq_none hpunct, paired?_eq_none hcomp, hslash, hquote, hgap]

/-- Digits and letters start nothing else. -/
theorem piece_digit {c : Char} (h : Text.isAsciiDigit c) (offset : Nat) (gs : List Glyph) :
    piece offset (.char c) gs = .ok (numberPiece c gs) := by
  have hquote : c ∉ ['"'] := not_mem_of_all (by decide) h
  rw [piece_other (not_mem_of_all (by decide) h) (not_mem_of_all (by decide) h) (by simpa using hquote)
    (not_mem_of_all (by decide) h), if_pos h]

theorem isLetter_eq_false_of_isAsciiDigit {c : Char} (h : Text.isAsciiDigit c) :
    Text.isLetter c = false := by
  have hle : c ≤ '9' := by
    simp only [Text.isAsciiDigit, Bool.and_eq_true, decide_eq_true_eq] at h
    exact h.2
  have hlt : c.toNat < 0x41 := Nat.lt_of_le_of_lt (UInt32.le_iff_toNat_le.1 hle) (by decide)
  rw [Text.isLetter, Text.letters, Text.Ranges.contains, if_pos hlt]

theorem piece_letter {c : Char} (h : Text.isLetter c) (offset : Nat) (gs : List Glyph) :
    piece offset (.char c) gs = .ok (wordPiece c gs) := by
  have hquote : c ∉ ['"'] := not_mem_of_all (by decide) h
  have hdigit : ¬ Text.isAsciiDigit c := by
    intro hd
    rw [isLetter_eq_false_of_isAsciiDigit hd] at h
    cases h
  rw [piece_other (not_mem_of_all (by decide) h) (not_mem_of_all (by decide) h) (by simpa using hquote)
    (not_mem_of_all (by decide) h), if_neg hdigit, if_pos h]

theorem piece_slash (offset : Nat) (gs : List Glyph) :
    piece offset (.char '/') gs = .ok (slashPiece gs) := rfl

theorem piece_quote (offset : Nat) (gs : List Glyph) :
    piece offset (.char '"') gs = stringPiece gs := rfl

theorem piece_blank {c : Char} (h : c ∈ blankChars) (offset : Nat) (gs : List Glyph) :
    piece offset (.char c) gs = .ok (.gap, 0) := by
  simp only [blankChars, List.mem_cons, List.not_mem_nil, or_false] at h
  rcases h with rfl | rfl | rfl | rfl <;> rfl

/-! ## Runs of characters -/

theorem leadingChars_append {inClass : Char → Bool} {cs : List Char} (h : ∀ c ∈ cs, inClass c)
    (gs : List Glyph) : leadingChars inClass (cs.map .char ++ gs) = cs ++ leadingChars inClass gs := by
  induction cs with
  | nil => rfl
  | cons c cs ih =>
      have ih := ih fun d hd => h d (List.mem_cons_of_mem _ hd)
      simp [leadingChars, h c List.mem_cons_self, ih]

theorem forall_mem_leadingChars (inClass : Char → Bool) (gs : List Glyph) :
    ∀ c ∈ leadingChars inClass gs, inClass c := by
  fun_induction leadingChars inClass gs with
  | case1 c gs hc ih =>
      intro d hd
      rcases List.mem_cons.1 hd with rfl | hd
      · exact hc
      · exact ih d hd
  | case2 => simp
  | case3 => simp

theorem leadingChars_isPrefix (inClass : Char → Bool) (gs : List Glyph) :
    (leadingChars inClass gs).map .char <+: gs := by
  fun_induction leadingChars inClass gs with
  | case1 c gs _ ih => exact List.prefix_cons_inj _ |>.2 ih
  | case2 => simp
  | case3 => simp

/-- The run of characters that starts a text stands there in full. -/
theorem leadingChars_bytes_isPrefix (inClass : Char → Bool) (t : Text) :
    (leadingChars inClass (decode t)).flatMap Text.ofChar <+: t := by
  obtain ⟨gs, hgs⟩ := leadingChars_isPrefix inClass (decode t)
  have hbytes := congrArg (List.flatMap bytes) hgs
  rw [bytes_decode, List.flatMap_append, List.flatMap_map] at hbytes
  exact ⟨_, hbytes⟩

/-- A lexeme that no character of a class makes longer is followed by none. -/
theorem leadingChars_decode_eq_nil {inClass : Char → Bool} {t : Text}
    (h : ∀ cs : List Char, (∀ c ∈ cs, inClass c) → cs.flatMap Text.ofChar <+: t →
      (cs.flatMap Text.ofChar).length = 0) : leadingChars inClass (decode t) = [] := by
  have hzero := h _ (forall_mem_leadingChars inClass _) (leadingChars_bytes_isPrefix inClass t)
  cases hcs : leadingChars inClass (decode t) with
  | nil => rfl
  | cons c cs =>
      rw [hcs, List.length_eq_zero_iff, List.flatMap_cons] at hzero
      exact absurd (List.append_eq_nil_iff.1 hzero).1 (ofChar_ne_nil c)

/-- The fraction of a number stands after a point. -/
theorem fractionDigits_decode (t : Text) :
    fractionDigits (decode t) = [] ∨
      Text.ofChar '.' ++ (fractionDigits (decode t)).flatMap Text.ofChar <+: t := by
  cases hd : decode t with
  | nil => exact Or.inl rfl
  | cons g gs =>
      by_cases hg : g = .char '.'
      · subst hg
        obtain ⟨tail, htail⟩ := leadingChars_isPrefix Text.isAsciiDigit gs
        have hbytes := congrArg (List.flatMap bytes) htail
        rw [List.flatMap_append, List.flatMap_map] at hbytes
        refine Or.inr ⟨tail.flatMap bytes, ?_⟩
        rw [eq_of_decode_eq_cons hd, ← hbytes, List.append_assoc]
        rfl
      · refine Or.inl ?_
        unfold fractionDigits
        split
        · rename_i heq
          exact absurd (List.cons.inj heq).1 hg
        · rfl

theorem forall_mem_fractionDigits (gs : List Glyph) :
    ∀ c ∈ fractionDigits gs, Text.isAsciiDigit c := by
  unfold fractionDigits
  split
  · exact forall_mem_leadingChars _ _
  · simp

/-! ## Lexemes and gaps -/

/-- The scanner takes a text that stands before the rest of a source for one piece. -/
def Reads (t : Text) (p : Piece) (rest : Text) : Prop :=
  ∃ g gs, decode (t ++ rest) = g :: (gs ++ decode rest) ∧
    ∀ offset, piece offset g (gs ++ decode rest) = .ok (p, gs.length)

theorem Reads.of_char {c : Char} {p : Piece} {rest : Text}
    (h : ∀ offset, piece offset (.char c) (decode rest) = .ok (p, 0)) : Reads (Text.ofChar c) p rest :=
  ⟨.char c, [], decode_ofChar_append c rest, h⟩

theorem Reads.of_chars {c : Char} {cs : List Char} {p : Piece} {rest : Text}
    (h : ∀ offset, piece offset (.char c) (cs.map .char ++ decode rest) = .ok (p, cs.length)) :
    Reads ((c :: cs).flatMap Text.ofChar) p rest :=
  ⟨.char c, cs.map .char, decode_chars_append (c :: cs) rest, by simpa using h⟩

theorem reads_slash {rest : Text} (h : ¬ slashes <+: Text.ofChar '/' ++ rest) :
    Reads (Text.ofChar '/') (.token .slash .none) rest := by
  have hnext : ∀ gs, decode rest ≠ .char '/' :: gs := by
    intro gs hgs
    refine h ⟨gs.flatMap bytes, ?_⟩
    rw [eq_of_decode_eq_cons hgs]
    rfl
  have hslash : slashPiece (decode rest) = (.token .slash .none, 0) := by
    unfold slashPiece
    split
    · rename_i hgs
      exact absurd hgs (hnext _)
    · rfl
  refine .of_char fun offset => ?_
  rw [piece_slash, hslash]

theorem reads_punctuation {c : Char} {kind : Kind} {rest : Text} (h : (c, kind) ∈ punctuation)
    (hrest : ¬ slashes <+: Text.ofChar c ++ rest) : Reads (Text.ofChar c) (.token kind .none) rest := by
  by_cases hc : c = '/'
  · subst hc
    obtain rfl : kind = .slash := by simpa [punctuation] using h
    exact reads_slash hrest
  · exact .of_char fun offset => piece_punctuation h hc offset _

theorem reads_short {c : Char} {short long : Kind} {rest : Text} (h : (c, short, long) ∈ comparisons)
    (hlongest : IsLongest .comparison (Text.ofChar c) rest) :
    Reads (Text.ofChar c) (.token short .none) rest := by
  have hhead : (decode rest).head? ≠ some (.char '=') := by
    intro hhead
    obtain ⟨gs, hgs⟩ := List.head?_eq_some_iff.1 hhead
    have hzero := hlongest.length_eq_zero (.long h) ⟨_, (eq_of_decode_eq_cons hgs).symm⟩
    exact absurd hzero (by decide)
  refine .of_char fun offset => ?_
  rw [piece_comparison h, if_neg hhead]

theorem reads_long {c : Char} {short long : Kind} (h : (c, short, long) ∈ comparisons) (rest : Text) :
    Reads (Text.ofChar c ++ Text.ofChar '=') (.token long .none) rest := by
  have hchars : [c, '='].flatMap Text.ofChar = Text.ofChar c ++ Text.ofChar '=' := by simp
  rw [← hchars]
  refine .of_chars fun offset => ?_
  have hhead : (['='].map Glyph.char ++ decode rest).head? = some (.char '=') := rfl
  rw [piece_comparison h, if_pos hhead]
  rfl

theorem takeWhile_append_stop {body : List Glyph} {stop : Glyph} (h : stop ∉ body) (gs : List Glyph) :
    (body ++ stop :: gs).takeWhile (· ≠ stop) = body := by
  have hall : ∀ g ∈ body, decide (g ≠ stop) = true := by
    intro g hg
    rw [decide_eq_true_eq]
    rintro rfl
    exact h hg
  rw [List.takeWhile_append_of_pos hall, List.takeWhile_cons_of_neg (by simp), List.append_nil]

theorem takeWhile_eq_self {body : List Glyph} {stop : Glyph} (h : stop ∉ body) :
    body.takeWhile (· ≠ stop) = body := by
  rw [List.takeWhile_eq_self_iff]
  intro g hg
  rw [decide_eq_true_eq]
  rintro rfl
  exact h hg

theorem quote_not_mem_decode {body : Text} (h : quote ∉ body) : .char '"' ∉ decode body := by
  rwa [mem_decode_iff ofChar_quote (by decide)]

theorem reads_string {body : Text} (h : quote ∉ body) (rest : Text) :
    Reads (quote :: body ++ [quote]) (.token .string (.text body)) rest := by
  have hdecode : decode (quote :: (body ++ quote :: rest)) =
      .char '"' :: (decode body ++ .char '"' :: decode rest) := by
    rw [decode_cons_of_ofChar ofChar_quote, decode_append_of_ascii body (by decide),
      decode_cons_of_ofChar ofChar_quote]
  refine ⟨.char '"', decode body ++ [.char '"'], by simpa using hdecode, fun offset => ?_⟩
  rw [piece_quote, List.append_assoc, stringPiece, List.singleton_append,
    takeWhile_append_stop (quote_not_mem_decode h), if_pos (by simp), bytes_decode]
  simp

theorem reads_whole {c : Char} {digits : List Char} {rest : Text}
    (h : ∀ d ∈ c :: digits, Text.isAsciiDigit d)
    (hlongest : IsLongest .number ((c :: digits).flatMap Text.ofChar) rest) :
    Reads ((c :: digits).flatMap Text.ofChar)
      (.token .number (.number (numberOfDigits (c :: digits) []))) rest := by
  obtain ⟨hc, hdigits⟩ := List.forall_mem_cons.1 h
  have hwhole : leadingChars Text.isAsciiDigit (decode rest) = [] := by
    refine leadingChars_decode_eq_nil fun more hmore hstart => ?_
    have hall : ∀ d ∈ c :: (digits ++ more), Text.isAsciiDigit d :=
      List.forall_mem_append.2 ⟨h, hmore⟩
    have hclass := InClass.whole hall
    rw [← List.cons_append, List.flatMap_append] at hclass
    exact hlongest.length_eq_zero hclass hstart
  have hpart : fractionDigits (decode rest) = [] := by
    rcases fractionDigits_decode rest with hnil | hstart
    · exact hnil
    · cases hp : fractionDigits (decode rest) with
      | nil => rfl
      | cons p part =>
          have hpart := forall_mem_fractionDigits (decode rest)
          rw [hp] at hstart hpart
          have hclass := InClass.fraction h hpart
          rw [List.append_assoc] at hclass
          have hzero := hlongest.length_eq_zero hclass hstart
          simp [ofChar_ne_nil] at hzero
  refine .of_chars fun offset => ?_
  rw [piece_digit hc, numberPiece, leadingChars_append hdigits, hwhole, List.append_nil,
    List.drop_left' (List.length_map _), hpart, if_pos rfl]

theorem reads_fraction {c : Char} {digits : List Char} {p : Char} {part : List Char} {rest : Text}
    (h : ∀ d ∈ c :: digits, Text.isAsciiDigit d) (hp : ∀ d ∈ p :: part, Text.isAsciiDigit d)
    (hlongest : IsLongest .number
      ((c :: digits).flatMap Text.ofChar ++ Text.ofChar '.' ++ (p :: part).flatMap Text.ofChar) rest) :
    Reads ((c :: digits).flatMap Text.ofChar ++ Text.ofChar '.' ++ (p :: part).flatMap Text.ofChar)
      (.token .number (.number (numberOfDigits (c :: digits) (p :: part)))) rest := by
  obtain ⟨hc, hdigits⟩ := List.forall_mem_cons.1 h
  have hpart : leadingChars Text.isAsciiDigit (decode rest) = [] := by
    refine leadingChars_decode_eq_nil fun more hmore hstart => ?_
    have hall : ∀ d ∈ p :: (part ++ more), Text.isAsciiDigit d := List.forall_mem_append.2 ⟨hp, hmore⟩
    have hclass := InClass.fraction h hall
    rw [← List.cons_append, List.flatMap_append, ← List.append_assoc] at hclass
    exact hlongest.length_eq_zero hclass hstart
  have hchars : (c :: digits).flatMap Text.ofChar ++ Text.ofChar '.' ++ (p :: part).flatMap Text.ofChar =
      (c :: (digits ++ '.' :: p :: part)).flatMap Text.ofChar := by simp
  rw [hchars]
  refine .of_chars fun offset => ?_
  have hfraction : fractionDigits (('.' :: p :: part).map .char ++ decode rest) = p :: part := by
    have hlead := leadingChars_append hp (decode rest)
    rwa [hpart, List.append_nil] at hlead
  have hwhole : leadingChars Text.isAsciiDigit (('.' :: p :: part).map .char ++ decode rest) = [] := rfl
  rw [piece_digit hc, numberPiece, List.map_append, List.append_assoc, leadingChars_append hdigits,
    hwhole, List.append_nil, List.drop_left' (List.length_map _), hfraction, if_neg (by simp)]
  simp [Nat.add_assoc, Nat.add_comm 1]

theorem reads_word {c : Char} {cs : List Char} {rest : Text} (hc : Text.isLetter c)
    (hcs : ∀ d ∈ cs, Text.isLetter d ∨ Text.isDigit d)
    (hlongest : IsLongest .word ((c :: cs).flatMap Text.ofChar) rest) :
    Reads ((c :: cs).flatMap Text.ofChar)
      (.token (.ofWord ((c :: cs).flatMap Text.ofChar)) .none) rest := by
  have hword : ∀ {ds : List Char},
      (∀ d ∈ ds, isWordChar d) ↔ ∀ d ∈ ds, Text.isLetter d ∨ Text.isDigit d := by simp [isWordChar]
  have hothers : leadingChars isWordChar (decode rest) = [] := by
    refine leadingChars_decode_eq_nil fun more hmore hstart => ?_
    have hall : ∀ d ∈ cs ++ more, Text.isLetter d ∨ Text.isDigit d :=
      List.forall_mem_append.2 ⟨hcs, hword.1 hmore⟩
    have hclass := InClass.word hc hall
    rw [← List.cons_append, List.flatMap_append] at hclass
    exact hlongest.length_eq_zero hclass hstart
  refine .of_chars fun offset => ?_
  rw [piece_letter hc, wordPiece, leadingChars_append (hword.2 hcs), hothers, List.append_nil]

/-- The scanner takes each lexeme for one piece, with the kind and the literal of its class. -/
theorem IsLexeme.reads {lexeme : Text} {kind : Kind} {literal : Literal} {rest : Text}
    (h : IsLexeme lexeme kind literal rest) : Reads lexeme (.token kind literal) rest := by
  obtain ⟨hrest, cls, hclass, hlongest⟩ := h
  cases hclass with
  | punctuation hmem => exact reads_punctuation hmem hrest
  | short hmem => exact reads_short hmem hlongest
  | long hmem => exact reads_long hmem rest
  | string hbody => exact reads_string hbody rest
  | whole hdigits => exact reads_whole hdigits hlongest
  | fraction hdigits hpart => exact reads_fraction hdigits hpart hlongest
  | word hc hcs => exact reads_word hc hcs hlongest

theorem reads_blank {b : UInt8} (h : b ∈ blanks) (rest : Text) : Reads [b] .gap rest := by
  have hmem := List.mem_map_of_mem (f := ([·])) h
  rw [← map_ofChar_blankChars] at hmem
  obtain ⟨c, hc, hb⟩ := List.mem_map.1 hmem
  rw [← hb]
  exact .of_char fun offset => piece_blank hc offset _

theorem reads_comment {body rest : Text} (h : Text.newline ∉ body)
    (hrest : ∀ b ∈ rest.head?, b = Text.newline) : Reads (slashes ++ body) .gap rest := by
  have hbody : .char '\n' ∉ decode body := by rwa [mem_decode_iff ofChar_newline (by decide)]
  have hfollow : decode (body ++ rest) = decode body ++ decode rest ∧
      (decode body ++ decode rest).takeWhile (· ≠ .char '\n') = decode body := by
    cases rest with
    | nil =>
        simp only [decode_nil, List.append_nil, true_and]
        exact takeWhile_eq_self hbody
    | cons b rest =>
        obtain rfl : b = Text.newline := hrest b rfl
        rw [decode_append_of_ascii body (by decide), decode_cons_of_ofChar ofChar_newline]
        exact ⟨rfl, takeWhile_append_stop hbody _⟩
  have hslashes : slashes = ['/', '/'].flatMap Text.ofChar := by decide
  refine ⟨.char '/', .char '/' :: decode body, ?_, fun offset => ?_⟩
  · rw [hslashes, List.append_assoc, decode_chars_append, hfollow.1]
    rfl
  · rw [piece_slash, List.cons_append, slashPiece, hfollow.2, List.length_cons, Nat.add_comm]

/-! ## Dead ends -/

theorem piece_replacement (offset : Nat) (gs : List Glyph) :
    piece offset (.char '\uFFFD') gs = .error (.invalidEncoding offset) := by
  have hletter : ¬ Text.isLetter '\uFFFD' := by decide +kernel
  rw [piece_other (by decide) (by decide) (by decide) (by decide), if_neg (by decide), if_neg hletter,
    if_pos rfl]

/-- Where neither a gap nor a lexeme starts, the scanner finds the fault. -/
theorem Stuck.piece {offset : Nat} {t : Text} {fault : Fault} (h : Stuck offset t fault) :
    ∃ g gs, decode t = g :: gs ∧ Token.piece offset g gs = .error fault := by
  cases h with
  | @unterminated body hbody =>
      refine ⟨_, _, decode_cons_of_ofChar ofChar_quote body, ?_⟩
      rw [piece_quote, stringPiece, takeWhile_eq_self (quote_not_mem_decode hbody),
        if_neg (Nat.lt_irrefl _)]
  | stray hno => exact ⟨_, _, decode_cons_stray (leading?_eq_none_iff.2 hno), rfl⟩
  | replacement => exact ⟨_, _, decode_ofChar_append _ _, piece_replacement _ _⟩
  | unexpected hstarts hrep =>
      refine ⟨_, _, decode_ofChar_append _ _, ?_⟩
      simp only [Starts, not_or] at hstarts
      obtain ⟨hblank, hpunct, hcomp, hquote, hdigit, hletter⟩ := hstarts
      rw [piece_other hpunct hcomp hquote hblank, if_neg hdigit, if_neg hletter, if_neg hrep]

end LetScript.Lexical
