import Mathlib.Data.List.TakeWhile
import LetScript.Proofs.Lexical.Glyphs

/-!
# The lexical grammar

How a source text falls apart into gaps and lexemes, said on its bytes and without a scanner. A lexeme is
the longest text of its class that starts where it starts; a gap is white space and comments. Going from
left to right, a text that is not used up starts with a gap or a lexeme, or nothing can start there
(`next_cases`).
-/

namespace LetScript.Lexical

/-! ## Lexemes -/

/-- The classes of lexemes. -/
inductive Class where
  | punctuation
  /-- Characters that may be followed by an equals sign. -/
  | comparison
  | string
  | number
  | word

/-- The characters that are lexemes by themselves. -/
def punctuation : List (Char × Token.Kind) :=
  [('(', .leftParen), (')', .rightParen), ('\x7b', .leftBrace), ('\x7d', .rightBrace), (',', .comma),
   ('.', .dot), ('-', .minus), ('+', .plus), (';', .semicolon), ('*', .star), ('/', .slash)]

/-- The characters that may be followed by an equals sign: what they are without and with it. -/
def comparisons : List (Char × Token.Kind × Token.Kind) :=
  [('!', .bang, .bangEqual), ('=', .equal, .equalEqual), ('<', .less, .lessEqual),
   ('>', .greater, .greaterEqual)]

/-- The quotation mark. -/
def quote : UInt8 := 0x22

theorem ofChar_quote : Text.ofChar '"' = [quote] := by decide

/-- The texts of a class, with the token kind and the literal value of each. -/
inductive InClass : Class → Text → Token.Kind → Token.Literal → Prop
  | punctuation {c : Char} {kind : Token.Kind} :
      (c, kind) ∈ punctuation → InClass .punctuation (Text.ofChar c) kind .none
  | short {c : Char} {short long : Token.Kind} :
      (c, short, long) ∈ comparisons → InClass .comparison (Text.ofChar c) short .none
  | long {c : Char} {short long : Token.Kind} :
      (c, short, long) ∈ comparisons →
      InClass .comparison (Text.ofChar c ++ Text.ofChar '=') long .none
  /-- Any bytes but the quotation mark may stand between quotes. -/
  | string {body : Text} :
      quote ∉ body → InClass .string (quote :: body ++ [quote]) .string (.text body)
  | whole {c : Char} {digits : List Char} :
      (∀ d ∈ c :: digits, Text.isAsciiDigit d) →
      InClass .number ((c :: digits).flatMap Text.ofChar) .number
        (.number (numberOfDigits (c :: digits) []))
  | fraction {c : Char} {digits : List Char} {p : Char} {part : List Char} :
      (∀ d ∈ c :: digits, Text.isAsciiDigit d) → (∀ d ∈ p :: part, Text.isAsciiDigit d) →
      InClass .number
        ((c :: digits).flatMap Text.ofChar ++ Text.ofChar '.' ++ (p :: part).flatMap Text.ofChar)
        .number (.number (numberOfDigits (c :: digits) (p :: part)))
  /-- A word may be reserved. -/
  | word {c : Char} {cs : List Char} :
      Text.isLetter c → (∀ d ∈ cs, Text.isLetter d ∨ Text.isDigit d) →
      InClass .word ((c :: cs).flatMap Text.ofChar) (.ofWord ((c :: cs).flatMap Text.ofChar)) .none

/-- The two slashes with which a comment starts. -/
def slashes : Text := [0x2F, 0x2F]

/-- No text of a class that starts where a lexeme starts is longer than it. -/
def IsLongest (cls : Class) (lexeme rest : Text) : Prop :=
  ∀ other kind literal, InClass cls other kind literal → other <+: lexeme ++ rest →
    other.length ≤ lexeme.length

/-- A lexeme before the rest of a text: the longest of its class, and not the start of a comment. -/
def IsLexeme (lexeme : Text) (kind : Token.Kind) (literal : Token.Literal) (rest : Text) : Prop :=
  ¬ slashes <+: lexeme ++ rest ∧ ∃ cls, InClass cls lexeme kind literal ∧ IsLongest cls lexeme rest

/-! ## Gaps -/

/-- The bytes of white space: space, carriage return, tab and line feed. -/
def blanks : Text := [0x20, 0x0D, 0x09, 0x0A]

/-- The characters of white space. -/
def blankChars : List Char := [' ', '\r', '\t', '\n']

theorem map_ofChar_blankChars : blankChars.map Text.ofChar = blanks.map ([·]) := by decide

/-- A gap before the rest of a text: white space, and comments up to the end of their lines. -/
inductive IsGap : Text → Text → Prop
  | nil {rest : Text} : IsGap [] rest
  | blank {b : UInt8} {gap rest : Text} : b ∈ blanks → IsGap gap rest → IsGap (b :: gap) rest
  /-- A comment reaches to the next line feed, which is not part of it, or to the end of the text. -/
  | comment {body gap rest : Text} :
      Text.newline ∉ body → (∀ b ∈ (gap ++ rest).head?, b = Text.newline) → IsGap gap rest →
      IsGap (slashes ++ body ++ gap) rest

/-! ## Dead ends -/

/-- The characters with which a gap or a lexeme can start. -/
def Starts (c : Char) : Prop :=
  c ∈ blankChars ∨ c ∈ punctuation.map Prod.fst ∨ c ∈ comparisons.map Prod.fst ∨ c = '"' ∨
    Text.isAsciiDigit c ∨ Text.isLetter c

/-- Neither a gap nor a lexeme starts the text that stands at a byte offset, for a reason. -/
inductive Stuck (offset : Nat) : Text → Fault → Prop
  /-- A string is not closed. -/
  | unterminated {body : Text} : quote ∉ body → Stuck offset (quote :: body) .unterminatedString
  /-- No character is encoded there. -/
  | stray {b : UInt8} {rest : Text} :
      (∀ c, ¬ Text.ofChar c <+: b :: rest) → Stuck offset (b :: rest) (.invalidEncoding offset)
  /-- The replacement character counts as none. -/
  | replacement {rest : Text} : Stuck offset (Text.ofChar '\uFFFD' ++ rest) (.invalidEncoding offset)
  | unexpected {c : Char} {rest : Text} :
      ¬ Starts c → c ≠ '\uFFFD' → Stuck offset (Text.ofChar c ++ rest) (.unexpectedCharacter c)

/-! ## Whole texts -/

/-- The text of tokens, each with the gap before it. -/
def textOf (parts : List (Text × Token)) : Text := parts.flatMap fun p => p.1 ++ p.2.lexeme

/-- A text falls apart from left to right into gaps, tokens and a rest. Each token has the line on which
its lexeme starts: one more than there are line feeds before it. -/
structure Split (t : Text) (parts : List (Text × Token)) (gap rest : Text) : Prop where
  /-- Nothing is lost. -/
  text : t = textOf parts ++ gap ++ rest
  /-- Each token stands after a gap and is the lexeme that starts there. -/
  part : ∀ before g token after, parts = before ++ (g, token) :: after →
    IsGap g (token.lexeme ++ (textOf after ++ gap ++ rest)) ∧
    IsLexeme token.lexeme token.kind token.literal (textOf after ++ gap ++ rest) ∧
    token.line = 1 + (textOf before ++ g).count Text.newline
  /-- The last gap stands before the rest. -/
  last : IsGap gap rest

/-! ## What comes next -/

theorem InClass.ne_nil {cls : Class} {lexeme : Text} {kind : Token.Kind} {literal : Token.Literal}
    (h : InClass cls lexeme kind literal) : lexeme ≠ [] := by
  cases h with
  | punctuation => exact Glyph.ofChar_ne_nil _
  | short => exact Glyph.ofChar_ne_nil _
  | long => exact List.append_ne_nil_of_left_ne_nil (Glyph.ofChar_ne_nil _) _
  | string => simp
  | whole => simp [Glyph.ofChar_ne_nil]
  | fraction => simp [Glyph.ofChar_ne_nil]
  | word => simp [Glyph.ofChar_ne_nil]

theorem IsLexeme.ne_nil {lexeme : Text} {kind : Token.Kind} {literal : Token.Literal} {rest : Text}
    (h : IsLexeme lexeme kind literal rest) : lexeme ≠ [] := by
  obtain ⟨-, cls, hclass, -⟩ := h
  exact hclass.ne_nil

theorem IsLongest.length_eq_zero {cls : Class} {lexeme more rest : Text} {kind : Token.Kind}
    {literal : Token.Literal} (h : IsLongest cls lexeme rest)
    (hclass : InClass cls (lexeme ++ more) kind literal) (hmore : more <+: rest) : more.length = 0 := by
  have hle := h _ _ _ hclass ((List.prefix_append_right_inj lexeme).2 hmore)
  rw [List.length_append] at hle
  omega

/-- A text that starts with a text of a class, and not with a comment, starts with a lexeme. -/
theorem exists_isLexeme {cls : Class} {start : Text} {kind : Token.Kind} {literal : Token.Literal}
    {t : Text} (hclass : InClass cls start kind literal) (hstart : start <+: t) (ht : ¬ slashes <+: t) :
    ∃ lexeme kind' literal' rest, t = lexeme ++ rest ∧ IsLexeme lexeme kind' literal' rest := by
  induction hn : t.length - start.length using Nat.strongRecOn generalizing start kind literal with
  | ind n ih =>
      by_cases hmore : ∃ longer kind' literal', InClass cls longer kind' literal' ∧ longer <+: t ∧
          start.length < longer.length
      · obtain ⟨longer, kind', literal', hclass', hlonger, hlt⟩ := hmore
        have hle := hlonger.length_le
        exact ih (t.length - longer.length) (by omega) hclass' hlonger rfl
      · obtain ⟨rest, rfl⟩ := hstart
        refine ⟨start, kind, literal, rest, rfl, ht, cls, hclass, ?_⟩
        intro longer kind' literal' hclass' hlonger
        exact Nat.le_of_not_lt fun hlt => hmore ⟨longer, kind', literal', hclass', hlonger, hlt⟩

/-- The ways in which a text that is not used up can go on, at a byte offset. -/
inductive Next (offset : Nat) : Text → Prop
  | blank {b : UInt8} {rest : Text} : b ∈ blanks → Next offset (b :: rest)
  | comment {body rest : Text} :
      Text.newline ∉ body → (∀ b ∈ rest.head?, b = Text.newline) → Next offset (slashes ++ body ++ rest)
  | lexeme {lexeme : Text} {kind : Token.Kind} {literal : Token.Literal} {rest : Text} :
      IsLexeme lexeme kind literal rest → Next offset (lexeme ++ rest)
  | stuck {t : Text} {fault : Fault} : Stuck offset t fault → Next offset t

theorem Next.of_inClass {offset : Nat} {cls : Class} {start : Text} {kind : Token.Kind}
    {literal : Token.Literal} {t : Text} (hclass : InClass cls start kind literal) (hstart : start <+: t)
    (ht : ¬ slashes <+: t) : Next offset t := by
  obtain ⟨lexeme, kind', literal', rest, rfl, hlexeme⟩ := exists_isLexeme hclass hstart ht
  exact .lexeme hlexeme

theorem Next.of_slashes (offset : Nat) (t : Text) : Next offset (slashes ++ t) := by
  have hcut : t.takeWhile (· ≠ Text.newline) ++ t.dropWhile (· ≠ Text.newline) = t :=
    List.takeWhile_append_dropWhile
  rw [← hcut, ← List.append_assoc]
  refine .comment ?_ ?_
  · intro hmem
    have hne := List.mem_takeWhile_imp hmem
    simp at hne
  · intro b hb
    have hnot := List.head?_dropWhile_not (· ≠ Text.newline) t
    rw [Option.mem_def.1 hb] at hnot
    simpa using hnot

theorem Next.of_quote (offset : Nat) (t : Text) (ht : ¬ slashes <+: quote :: t) :
    Next offset (quote :: t) := by
  by_cases hq : quote ∈ t
  · obtain ⟨body, rest, rfl, hbody⟩ := List.eq_append_cons_of_mem hq
    have hstart : quote :: body ++ [quote] <+: quote :: (body ++ quote :: rest) := ⟨rest, by simp⟩
    exact .of_inClass (.string hbody) hstart ht
  · exact .stuck (.unterminated hq)

theorem Next.of_ofChar (offset : Nat) (c : Char) (rest : Text)
    (ht : ¬ slashes <+: Text.ofChar c ++ rest) : Next offset (Text.ofChar c ++ rest) := by
  have hstart : Text.ofChar c <+: Text.ofChar c ++ rest := List.prefix_append _ _
  by_cases hblank : c ∈ blankChars
  · have hmem := List.mem_map_of_mem (f := Text.ofChar) hblank
    rw [map_ofChar_blankChars] at hmem
    obtain ⟨b, hb, hc⟩ := List.mem_map.1 hmem
    rw [← hc]
    exact .blank hb
  by_cases hpunct : c ∈ punctuation.map Prod.fst
  · obtain ⟨⟨c', kind⟩, hmem, rfl⟩ := List.mem_map.1 hpunct
    exact .of_inClass (.punctuation hmem) hstart ht
  by_cases hcomp : c ∈ comparisons.map Prod.fst
  · obtain ⟨⟨c', short, long⟩, hmem, rfl⟩ := List.mem_map.1 hcomp
    exact .of_inClass (.short hmem) hstart ht
  by_cases hquote : c = '"'
  · subst hquote
    exact .of_quote offset rest ht
  by_cases hdigit : Text.isAsciiDigit c
  · have hwhole : InClass .number ([c].flatMap Text.ofChar) _ _ := .whole (by simpa using hdigit)
    exact .of_inClass hwhole (by simp) ht
  by_cases hletter : Text.isLetter c
  · have hword : InClass .word ([c].flatMap Text.ofChar) _ _ := .word hletter (by simp)
    exact .of_inClass hword (by simp) ht
  by_cases hrep : c = '\uFFFD'
  · subst hrep
    exact .stuck .replacement
  · refine .stuck (.unexpected ?_ hrep)
    rintro (h | h | h | h | h | h)
    · exact hblank h
    · exact hpunct h
    · exact hcomp h
    · exact hquote h
    · exact hdigit h
    · exact hletter h

/-- A text that is not used up starts with a gap or a lexeme, or nothing can start there. -/
theorem next_cases (offset : Nat) {t : Text} (ht : t ≠ []) : Next offset t := by
  by_cases hslashes : slashes <+: t
  · obtain ⟨rest, rfl⟩ := hslashes
    exact .of_slashes offset rest
  · cases t with
    | nil => exact absurd rfl ht
    | cons b rest =>
        cases hl : Glyph.leading? b rest with
        | none => exact .stuck (.stray (Glyph.leading?_eq_none_iff.1 hl))
        | some c =>
            obtain ⟨tail, htail⟩ := Glyph.leading?_eq_some_iff.1 hl
            rw [← htail] at hslashes ⊢
            exact .of_ofChar offset c tail hslashes

/-! ## Every text falls apart -/

/-- The same as `Split`, token by token: the tokens that start on a line or after it. -/
inductive Layout (gap rest : Text) : Nat → List (Text × Token) → Prop
  | nil {line : Nat} : IsGap gap rest → Layout gap rest line []
  | cons {line : Nat} {g : Text} {token : Token} {more : List (Text × Token)} :
      IsGap g (token.lexeme ++ (textOf more ++ gap ++ rest)) →
      IsLexeme token.lexeme token.kind token.literal (textOf more ++ gap ++ rest) →
      token.line = (line + g.count Text.newline : Nat) →
      Layout gap rest (line + (g ++ token.lexeme).count Text.newline) more →
      Layout gap rest line ((g, token) :: more)

theorem IsGap.append {g g' rest : Text} (h : IsGap g (g' ++ rest)) (h' : IsGap g' rest) :
    IsGap (g ++ g') rest := by
  generalize hfollow : g' ++ rest = follow at h
  induction h with
  | nil => exact h'
  | blank hb _ ih => exact .blank hb (ih hfollow)
  | @comment body gap follow hbody hend _ ih =>
      subst hfollow
      rw [List.append_assoc (slashes ++ body)]
      exact .comment hbody (by simpa using hend) (ih rfl)

theorem Layout.last {gap rest : Text} {line : Nat} {parts : List (Text × Token)}
    (h : Layout gap rest line parts) : IsGap gap rest := by
  induction h with
  | nil hgap => exact hgap
  | cons _ _ _ _ ih => exact ih

theorem Layout.part {gap rest : Text} {line : Nat} {parts : List (Text × Token)}
    (h : Layout gap rest line parts) {before : List (Text × Token)} {g : Text} {token : Token}
    {after : List (Text × Token)} (hparts : parts = before ++ (g, token) :: after) :
    IsGap g (token.lexeme ++ (textOf after ++ gap ++ rest)) ∧
      IsLexeme token.lexeme token.kind token.literal (textOf after ++ gap ++ rest) ∧
      token.line = (line + (textOf before ++ g).count Text.newline : Nat) := by
  induction h generalizing before with
  | nil => simp at hparts
  | @cons line g' token' more hgap hlexeme hline _ ih =>
      cases before with
      | nil =>
          obtain ⟨⟨rfl, rfl⟩, rfl⟩ : (g' = g ∧ token' = token) ∧ more = after := by simpa using hparts
          exact ⟨hgap, hlexeme, by simpa [textOf] using hline⟩
      | cons p before =>
          obtain ⟨rfl, hmore⟩ : (g', token') = p ∧ more = before ++ (g, token) :: after := by
            simpa using hparts
          obtain ⟨hg, hl, hline'⟩ := ih hmore
          refine ⟨hg, hl, ?_⟩
          rw [hline']
          simp [textOf, List.count_append, Nat.add_assoc]

theorem layout_of_part {gap rest : Text} {line : Nat} {parts : List (Text × Token)}
    (hlast : IsGap gap rest)
    (hpart : ∀ before g token after, parts = before ++ (g, token) :: after →
      IsGap g (token.lexeme ++ (textOf after ++ gap ++ rest)) ∧
      IsLexeme token.lexeme token.kind token.literal (textOf after ++ gap ++ rest) ∧
      token.line = (line + (textOf before ++ g).count Text.newline : Nat)) :
    Layout gap rest line parts := by
  induction parts generalizing line with
  | nil => exact .nil hlast
  | cons p more ih =>
      obtain ⟨hg, hl, hline⟩ := hpart [] p.1 p.2 more rfl
      refine .cons hg hl (by simpa [textOf] using hline) (ih ?_)
      intro before g token after hmore
      obtain ⟨hg', hl', hline'⟩ := hpart (p :: before) g token after (by rw [hmore]; rfl)
      refine ⟨hg', hl', ?_⟩
      rw [hline']
      simp [textOf, List.count_append, Nat.add_assoc]

theorem split_iff {t : Text} {parts : List (Text × Token)} {gap rest : Text} :
    Split t parts gap rest ↔ t = textOf parts ++ gap ++ rest ∧ Layout gap rest 1 parts := by
  constructor
  · rintro ⟨htext, hpart, hlast⟩
    exact ⟨htext, layout_of_part hlast (by simpa using hpart)⟩
  · rintro ⟨htext, hlayout⟩
    refine ⟨htext, ?_, hlayout.last⟩
    intro before g token after hparts
    simpa using hlayout.part hparts

/-- A gap before the first token makes the gap of this token longer. -/
theorem Layout.prepend {gap rest : Text} {line : Nat} {g : Text} {parts : List (Text × Token)}
    (hg : IsGap g (textOf parts ++ gap ++ rest))
    (h : Layout gap rest (line + g.count Text.newline) parts) :
    ∃ parts' gap', textOf parts' ++ gap' = g ++ (textOf parts ++ gap) ∧ Layout gap' rest line parts' := by
  cases h with
  | nil hgap => exact ⟨[], g ++ gap, by simp [textOf], .nil (.append hg hgap)⟩
  | @cons _ g' token more hgap hlexeme hline hmore =>
      refine ⟨(g ++ g', token) :: more, gap, by simp [textOf], .cons (.append ?_ hgap) hlexeme ?_ ?_⟩
      · simpa [textOf] using hg
      · rw [hline, List.count_append, Nat.add_assoc]
      · simpa [List.count_append, Nat.add_assoc] using hmore

/-- From any line and offset, a text falls apart into gaps and tokens up to its end or to a dead end. -/
theorem exists_layout (t : Text) (line offset : Nat) :
    ∃ parts gap rest, t = textOf parts ++ gap ++ rest ∧ Layout gap rest line parts ∧
      (rest = [] ∨ ∃ fault, Stuck (offset + (textOf parts ++ gap).length) rest fault) := by
  induction hn : t.length using Nat.strongRecOn generalizing t line offset with
  | ind n ih =>
      -- a gap at the start joins the first gap of what follows it
      have hgap : ∀ g rest, t = g ++ rest → g ≠ [] → IsGap g rest →
          ∃ parts gap rest, t = textOf parts ++ gap ++ rest ∧ Layout gap rest line parts ∧
            (rest = [] ∨ ∃ fault, Stuck (offset + (textOf parts ++ gap).length) rest fault) := by
        intro g follow ht hne hg
        have hpos := List.length_pos_iff.2 hne
        have hlt : follow.length < n := by rw [← hn, ht, List.length_append]; omega
        obtain ⟨parts, gap, rest, rfl, hlayout, hend⟩ :=
          ih follow.length hlt follow (line + g.count Text.newline) (offset + g.length) rfl
        obtain ⟨parts', gap', htext, hlayout'⟩ := Layout.prepend hg hlayout
        refine ⟨parts', gap', rest, by simp [ht, htext], hlayout', ?_⟩
        rw [htext, List.length_append, ← Nat.add_assoc]
        exact hend
      by_cases ht : t = []
      · exact ⟨[], [], [], by simp [ht, textOf], .nil .nil, Or.inl rfl⟩
      · cases next_cases offset ht with
        | @blank b rest hb => exact hgap [b] rest rfl (by simp) (.blank hb .nil)
        | @comment body rest hbody hend =>
            refine hgap (slashes ++ body) rest rfl (by simp [slashes]) ?_
            have hcomment : IsGap (slashes ++ body ++ []) rest := .comment hbody hend .nil
            simpa using hcomment
        | @lexeme lexeme kind literal follow hlexeme =>
            have hpos := List.length_pos_iff.2 hlexeme.ne_nil
            have hlt : follow.length < n := by rw [← hn, List.length_append]; omega
            obtain ⟨parts, gap, rest, rfl, hlayout, hend⟩ := ih follow.length hlt follow
              (line + lexeme.count Text.newline) (offset + lexeme.length) rfl
            refine ⟨([], ⟨kind, lexeme, literal, line⟩) :: parts, gap, rest, by simp [textOf],
              .cons .nil hlexeme (by simp) (by simpa using hlayout), ?_⟩
            rw [List.length_append] at hend ⊢
            simp only [textOf, List.flatMap_cons, List.nil_append, List.length_append] at hend ⊢
            rw [← Nat.add_assoc] at hend
            rw [← Nat.add_assoc, ← Nat.add_assoc]
            exact hend
        | stuck hstuck => exact ⟨[], [], t, by simp [textOf], .nil .nil, Or.inr ⟨_, hstuck⟩⟩

end LetScript.Lexical
