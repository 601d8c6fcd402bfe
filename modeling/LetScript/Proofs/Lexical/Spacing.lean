import LetScript.Proofs.Lexical.Scan

/-!
# Lexemes set apart by spaces

A space ends every lexeme: none of them holds one but for strings, and a string ends with its quotation
mark. So the lexemes of a source, with one space between any two, are scanned as the same tokens. Only their
lines are counted anew, from the line feeds that are left, which are those in strings.
-/

namespace LetScript.Lexical

open Token Glyph

/-! ## Before a space -/

def space : UInt8 := 0x20

theorem ofChar_space : Text.ofChar ' ' = [space] := by decide

section

variable {cls : Class} {lexeme : Text} {kind : Kind} {literal : Literal}

/-- The characters of numbers and words. -/
def InWords (c : Char) : Prop := Text.isLetter c ∨ Text.isDigit c ∨ Text.isAsciiDigit c ∨ c = '.'

instance (c : Char) : Decidable (InWords c) :=
  inferInstanceAs (Decidable (Text.isLetter c ∨ Text.isDigit c ∨ Text.isAsciiDigit c ∨ c = '.'))

theorem InClass.exists_chars (h : InClass cls lexeme kind literal) (hcls : cls = .number ∨ cls = .word) :
    ∃ cs : List Char, lexeme = cs.flatMap Text.ofChar ∧ ∀ c ∈ cs, InWords c := by
  cases h with
  | punctuation => simp at hcls
  | short => simp at hcls
  | long => simp at hcls
  | string => simp at hcls
  | whole hwhole => exact ⟨_, rfl, fun c hc => .inr (.inr (.inl (hwhole c hc)))⟩
  | @fraction c digits p part hwhole hpart =>
      refine ⟨(c :: digits) ++ '.' :: (p :: part), by simp, fun d hd => ?_⟩
      rcases List.mem_append.1 hd with hd | hd
      · exact .inr (.inr (.inl (hwhole d hd)))
      · rcases List.mem_cons.1 hd with rfl | hd
        · exact .inr (.inr (.inr rfl))
        · exact .inr (.inr (.inl (hpart d hd)))
  | word hc hcs =>
      refine ⟨_, rfl, fun d hd => ?_⟩
      rcases List.mem_cons.1 hd with rfl | hd
      · exact .inl hc
      · exact (hcs d hd).imp_right .inl

theorem InClass.byte_not_mem (h : InClass cls lexeme kind literal) (hcls : cls = .number ∨ cls = .word)
    {c : Char} {b : UInt8} (hbyte : Text.ofChar c = [b]) (hb : b.toNat < 128) (hc : ¬ InWords c) :
    b ∉ lexeme := by
  obtain ⟨cs, rfl, hcs⟩ := h.exists_chars hcls
  rw [mem_chars_iff hbyte hb]
  exact fun hmem => hc (hcs c hmem)

theorem InClass.space_not_mem (h : InClass cls lexeme kind literal) (hcls : cls ≠ .string) :
    space ∉ lexeme := by
  have hpunctuation : ∀ p ∈ Lexical.punctuation, space ∉ Text.ofChar p.1 := by decide
  have hcomparison : ∀ p ∈ comparisons, space ∉ Text.ofChar p.1 ++ Text.ofChar '=' := by decide
  have hwords : cls = .number ∨ cls = .word → space ∉ lexeme :=
    fun hcls => h.byte_not_mem hcls ofChar_space (by decide) (by decide +kernel)
  cases h with
  | punctuation hmem => exact hpunctuation _ hmem
  | short hmem => exact fun h => hcomparison _ hmem (List.mem_append_left _ h)
  | long hmem => exact hcomparison _ hmem
  | string => exact absurd rfl hcls
  | whole => exact hwords (.inl rfl)
  | fraction => exact hwords (.inl rfl)
  | word => exact hwords (.inr rfl)

/-- A string is not the beginning of another one. -/
theorem string_not_prefix {body body' : Text} (h : quote ∉ body') (more : UInt8) :
    ¬ quote :: body ++ [quote] ++ [more] <+: quote :: body' ++ [quote] := by
  intro hprefix
  have hbody : body ++ [quote] ++ [more] <+: body' ++ [quote] := (List.prefix_cons_inj quote).1 hprefix
  have hlength := hbody.length_le
  simp only [List.length_append, List.length_singleton] at hlength
  have hshort : body ++ [quote] <+: body' :=
    List.prefix_of_prefix_length_le ((List.prefix_append _ _).trans hbody) (List.prefix_append _ _)
      (by simp only [List.length_append, List.length_singleton]; omega)
  exact h (hshort.subset (by simp))

/-- A text of a class before a space is a lexeme. -/
theorem InClass.isLexeme_space (h : InClass cls lexeme kind literal) (rest : Text) :
    IsLexeme lexeme kind literal (space :: rest) := by
  refine ⟨fun hslashes => ?_, cls, h, fun other kind' literal' hother hprefix => ?_⟩
  · -- both slashes would have to be in the lexeme
    obtain ⟨b, more, rfl⟩ := List.exists_cons_of_ne_nil h.ne_nil
    cases more with
    | nil =>
        obtain ⟨tail, htail⟩ := hslashes
        cases htail
    | cons b' more =>
        refine h.not_slashes (List.prefix_of_prefix_length_le hslashes (List.prefix_append _ _) ?_)
        simp [slashes]
  · refine Nat.le_of_not_lt fun hlt => ?_
    have hspace : lexeme ++ [space] <+: other := by
      refine List.prefix_of_prefix_length_le ⟨rest, ?_⟩ hprefix ?_
      · simp
      · rw [List.length_append, List.length_singleton]
        exact hlt
    by_cases hcls : cls = .string
    · subst hcls
      cases h with
      | string =>
          cases hother with
          | string hbody => exact string_not_prefix hbody space hspace
    · exact hother.space_not_mem hcls (hspace.subset (by simp))

end

/-! ## Whole sources -/

/-- The tokens and the end of input, on the lines that there are if only their lexemes are written. -/
def relined (line : Nat) : List Token → List Token
  | [] => [endOfInput line]
  | t :: ts => { t with line } :: relined (line + t.lexeme.count Text.newline) ts

theorem scanFrom_space (source : Text) (line offset : Nat) (rest : Text) :
    scanFrom source line offset (decode (space :: rest)) = scanFrom source line (offset + 1) (decode rest) :=
  scanFrom_gap (reads_blank (by decide) rest) source line offset

theorem scanFrom_spaced {ts : List Token} (h : ∀ t ∈ ts, ∃ cls, InClass cls t.lexeme t.kind t.literal)
    (source : Text) (line offset : Nat) :
    scanFrom source line offset (decode (Text.join [space] (ts.map Token.lexeme))) =
      .ok (relined line ts) := by
  induction ts generalizing line offset with
  | nil => rw [List.map_nil, Text.join, List.intersperse_nil, List.flatten_nil, decode_nil, scanFrom, relined]
  | cons t ts ih =>
      obtain ⟨⟨cls, hclass⟩, hts⟩ := List.forall_mem_cons.1 h
      cases ts with
      | nil =>
          have hjoin : Text.join [space] ([t].map Token.lexeme) = t.lexeme := by simp [Text.join]
          rw [hjoin, scanFrom_alone hclass]
          rfl
      | cons next ts =>
          rw [List.map_cons, List.map_cons, Text.join_cons_cons, ← List.map_cons, List.append_assoc,
            List.singleton_append, scanFrom_lexeme (hclass.isLexeme_space _), scanFrom_space, ih hts]
          rfl

theorem relined_eq_mapIdx (line : Nat) (last : Int) (ts : List Token) :
    relined line ts = (ts ++ [endOfInput last]).mapIdx fun i t =>
      { t with line := line + (((ts ++ [endOfInput last]).take i).flatMap lexeme).count Text.newline } := by
  induction ts generalizing line with
  | nil => simp [relined, endOfInput]
  | cons t ts ih =>
      rw [relined, ih, List.cons_append, List.mapIdx_cons]
      simp [Int.add_assoc]

/-- The lexemes of a source, joined by single spaces, are scanned as its tokens: kinds, lexemes and literals
are the same, one for one, and a token stands on the line after as many line feeds as the lexemes before it
have. -/
theorem scan_spaced_lexemes (source : Text) {text : Text} {tokens : List Token}
    (h : scan source text = .ok tokens) :
    scan source (Text.join [space] (tokens.dropLast.map Token.lexeme)) =
      .ok (tokens.mapIdx fun i t =>
        { t with line := 1 + ((tokens.take i).flatMap Token.lexeme).count Text.newline }) := by
  obtain ⟨before, last, rfl⟩ := exists_endOfInput h
  rw [List.dropLast_concat, scan, scanFrom_spaced (fun t => inClass_of_scan h),
    relined_eq_mapIdx 1 last before]
  rfl

/-- Two slashes apart, a number before a point, a string over two lines, and signs that could be one. -/
theorem scan_spaced_lexemes_joints :
    let text := Text.ofString "1.5.x/ /\"a\nb\"! ==true//c"
    ∃ tokens, scan [] text = .ok tokens ∧
      tokens.map (fun t => (t.kind, t.line)) =
        [(.number, 1), (.dot, 1), (.identifier, 1), (.slash, 1), (.slash, 1), (.string, 1), (.bang, 2),
          (.equalEqual, 2), (.keyword .trueKw, 2), (.endOfInput, 2)] ∧
      Text.join [space] (tokens.dropLast.map Token.lexeme) =
        Text.ofString "1.5 . x / / \"a\nb\" ! == true" ∧
      scan [] (Text.ofString "1.5 . x / / \"a\nb\" ! == true") =
        .ok (tokens.mapIdx fun i t =>
          { t with line := 1 + ((tokens.take i).flatMap Token.lexeme).count Text.newline }) := by
  intro text
  have hshapes : (scan [] text).toOption.map (fun tokens =>
      (tokens.map (fun t => (t.kind, t.line)), Text.join [space] (tokens.dropLast.map Token.lexeme))) =
        some ([(.number, 1), (.dot, 1), (.identifier, 1), (.slash, 1), (.slash, 1), (.string, 1), (.bang, 2),
          (.equalEqual, 2), (.keyword .trueKw, 2), (.endOfInput, 2)],
          Text.ofString "1.5 . x / / \"a\nb\" ! == true") := by decide +kernel
  cases hscan : scan [] text with
  | error d =>
      rw [hscan] at hshapes
      cases hshapes
  | ok tokens =>
      rw [hscan] at hshapes
      obtain ⟨hkinds, hjoin⟩ := Prod.mk.inj (Option.some.inj hshapes)
      refine ⟨tokens, rfl, hkinds, hjoin, ?_⟩
      rw [← hjoin]
      exact scan_spaced_lexemes [] hscan

end LetScript.Lexical
