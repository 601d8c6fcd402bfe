import LetScript.Proofs.Lexical.Pieces

/-!
# Scanning is the lexical grammar

From the pieces that the scanner finds, step by step, to whole sources: it gives the tokens of a source
that falls apart into gaps and lexemes up to its end, and otherwise the fault at the dead end.
-/

namespace LetScript.Lexical

open Token Glyph

/-! ## One step -/

/-- One step of the scanner takes one piece, and keeps count of lines and bytes. -/
theorem Reads.scanFrom {t : Text} {p : Piece} {rest : Text} (h : Reads t p rest) (source : Text)
    (line offset : Nat) :
    ∃ gs, gs.flatMap bytes = t ∧
      Token.scanFrom source line offset (decode (t ++ rest)) =
        (Token.scanFrom source (line + t.count Text.newline) (offset + t.length) (decode rest)).map
          (p.tokens line gs ++ ·) := by
  obtain ⟨g, gs, hdecode, hpiece⟩ := h
  have hbytes : (g :: gs).flatMap bytes = t := by
    have hall := congrArg (List.flatMap bytes) hdecode
    rw [bytes_decode, ← List.cons_append, List.flatMap_append, bytes_decode] at hall
    exact (List.append_cancel_right hall).symm
  have hproper : ∀ g' ∈ g :: gs, g'.IsProper := by
    intro g' hg'
    refine isProper_of_mem_decode (t := t ++ rest) ?_
    rw [hdecode, ← List.cons_append]
    exact List.mem_append_left _ hg'
  refine ⟨g :: gs, hbytes, ?_⟩
  rw [hdecode, Token.scanFrom, hpiece offset]
  simp only [List.take_left, List.drop_left]
  rw [lineFeeds_eq_count hproper, hbytes]

theorem scanFrom_gap {g rest : Text} (h : Reads g .gap rest) (source : Text) (line offset : Nat) :
    scanFrom source line offset (decode (g ++ rest)) =
      scanFrom source (line + g.count Text.newline) (offset + g.length) (decode rest) := by
  obtain ⟨gs, -, hscan⟩ := h.scanFrom source line offset
  rw [hscan]
  exact congrFun Except.map_id _

theorem scanFrom_lexeme {lexeme : Text} {kind : Kind} {literal : Literal} {rest : Text}
    (h : IsLexeme lexeme kind literal rest) (source : Text) (line offset : Nat) :
    scanFrom source line offset (decode (lexeme ++ rest)) =
      (scanFrom source (line + lexeme.count Text.newline) (offset + lexeme.length) (decode rest)).map
        ([⟨kind, lexeme, literal, line⟩] ++ ·) := by
  obtain ⟨gs, rfl, hscan⟩ := h.reads.scanFrom source line offset
  exact hscan

theorem scanFrom_stuck {offset : Nat} {t : Text} {fault : Fault} (h : Stuck offset t fault)
    (source : Text) (line : Nat) :
    scanFrom source line offset (decode t) = .error ⟨.atLine source line, fault⟩ := by
  obtain ⟨g, gs, hdecode, hpiece⟩ := h.piece
  rw [hdecode, scanFrom, hpiece]

/-! ## One lexeme -/

section

variable {cls : Class} {lexeme : Text} {kind : Kind} {literal : Literal}

theorem not_slashes_of_ne {c : Char} (hc : c ≠ '/') (rest : Text) : ¬ slashes <+: Text.ofChar c ++ rest := by
  rintro ⟨tail, htail⟩
  have hdecode := congrArg decode htail
  rw [decode_ofChar_append, show slashes ++ tail = Text.ofChar '/' ++ (0x2F :: tail) from rfl,
    decode_ofChar_append] at hdecode
  exact hc (Glyph.char.inj (List.cons.inj hdecode).1).symm

/-- No lexeme is the start of a comment. -/
theorem InClass.not_slashes (h : InClass cls lexeme kind literal) : ¬ slashes <+: lexeme := by
  have hsingle : ∀ p ∈ Lexical.punctuation, ¬ slashes <+: Text.ofChar p.1 := by decide
  have hcomparison : ∀ p ∈ comparisons, p.1 ≠ '/' := by decide
  have hdigit : ∀ {c : Char}, Text.isAsciiDigit c → c ≠ '/' := by
    rintro c hc rfl
    exact absurd hc (by decide)
  cases h with
  | punctuation hmem => exact hsingle _ hmem
  | short hmem =>
      rw [← List.append_nil (Text.ofChar _)]
      exact not_slashes_of_ne (hcomparison _ hmem) []
  | long hmem => exact not_slashes_of_ne (hcomparison _ hmem) _
  | string =>
      rintro ⟨tail, htail⟩
      cases htail
  | whole hdigits => exact not_slashes_of_ne (hdigit (hdigits _ List.mem_cons_self)) _
  | fraction hdigits =>
      rw [List.append_assoc, List.flatMap_cons, List.append_assoc]
      exact not_slashes_of_ne (hdigit (hdigits _ List.mem_cons_self)) _
  | word hc =>
      refine not_slashes_of_ne ?_ _
      rintro rfl
      exact absurd hc (by decide +kernel)

/-- A text of a class with nothing behind it is a lexeme. -/
theorem InClass.isLexeme_alone (h : InClass cls lexeme kind literal) : IsLexeme lexeme kind literal [] := by
  rw [IsLexeme, List.append_nil]
  refine ⟨h.not_slashes, cls, h, fun other _ _ _ hother => ?_⟩
  rw [List.append_nil] at hother
  exact hother.length_le

/-- A text of a class, alone up to the end, is one token. -/
theorem scanFrom_alone (h : InClass cls lexeme kind literal) (source : Text) (line offset : Nat) :
    scanFrom source line offset (decode lexeme) =
      .ok [⟨kind, lexeme, literal, line⟩, .endOfInput ↑(line + lexeme.count Text.newline)] := by
  have hscan := scanFrom_lexeme h.isLexeme_alone source line offset
  rwa [List.append_nil, decode_nil, scanFrom] at hscan

theorem scan_alone (h : InClass cls lexeme kind literal) (source : Text) :
    scan source lexeme =
      .ok ([⟨kind, lexeme, literal, 1⟩] ++ [.endOfInput ↑(1 + lexeme.count Text.newline)]) :=
  scanFrom_alone h source 1 0

/-- A minus sign before such a text is a token of its own. -/
theorem scan_minus (h : InClass cls lexeme kind literal) (source : Text) :
    ∃ last : Nat, scan source (Text.ofChar '-' ++ lexeme) =
      .ok ([⟨.minus, Text.ofChar '-', .none, 1⟩, ⟨kind, lexeme, literal, 1⟩] ++ [.endOfInput last]) := by
  have hminus : IsLexeme (Text.ofChar '-') .minus .none lexeme := by
    refine ⟨not_slashes_of_ne (by decide) lexeme, .punctuation, .punctuation (by decide), ?_⟩
    intro other kind literal hother _
    have hsingle : ∀ p ∈ punctuation, (Text.ofChar p.1).length ≤ (Text.ofChar '-').length := by decide
    cases hother with
    | punctuation hmem => exact hsingle _ hmem
  refine ⟨1 + lexeme.count Text.newline, ?_⟩
  rw [scan, scanFrom_lexeme hminus]
  change (scanFrom source 1 1 _).map _ = _
  rw [scanFrom_alone h]
  rfl

end

/-! ## Whole sources -/

theorem scanFrom_gap_append {source g g' rest : Text} (h : Reads g .gap (g' ++ rest))
    (hrest : ∀ line offset, scanFrom source line offset (decode (g' ++ rest)) =
      scanFrom source (line + g'.count Text.newline) (offset + g'.length) (decode rest))
    (line offset : Nat) :
    scanFrom source line offset (decode (g ++ g' ++ rest)) =
      scanFrom source (line + (g ++ g').count Text.newline) (offset + (g ++ g').length) (decode rest) := by
  rw [List.append_assoc, scanFrom_gap h, hrest, List.count_append, List.length_append, Nat.add_assoc,
    Nat.add_assoc]

theorem scanFrom_isGap {g rest : Text} (h : IsGap g rest) (source : Text) (line offset : Nat) :
    scanFrom source line offset (decode (g ++ rest)) =
      scanFrom source (line + g.count Text.newline) (offset + g.length) (decode rest) := by
  induction h generalizing line offset with
  | nil => rfl
  | blank hb _ ih => exact scanFrom_gap_append (reads_blank hb _) ih line offset
  | comment hbody hend _ ih => exact scanFrom_gap_append (reads_comment hbody hend) ih line offset

/-- The scanner gives the tokens of a layout, and goes on behind it with the line and offset there. -/
theorem scanFrom_layout {gap rest : Text} {line : Nat} {parts : List (Text × Token)}
    (h : Layout gap rest line parts) (source : Text) (offset : Nat) :
    scanFrom source line offset (decode (textOf parts ++ gap ++ rest)) =
      (scanFrom source (line + (textOf parts ++ gap).count Text.newline)
        (offset + (textOf parts ++ gap).length) (decode rest)).map (parts.map Prod.snd ++ ·) := by
  induction h generalizing offset with
  | nil hgap =>
      rw [textOf, List.flatMap_nil, List.nil_append, scanFrom_isGap hgap]
      exact (congrFun Except.map_id _).symm
  | @cons line g token more hgap hlexeme hline _ ih =>
      have htext : textOf ((g, token) :: more) ++ gap = g ++ (token.lexeme ++ (textOf more ++ gap)) := by
        simp [textOf]
      have hcount : line + g.count Text.newline + token.lexeme.count Text.newline =
          line + (g ++ token.lexeme).count Text.newline := by rw [List.count_append, Nat.add_assoc]
      have hend : line + (g ++ token.lexeme).count Text.newline + (textOf more ++ gap).count Text.newline =
          line + (g ++ (token.lexeme ++ (textOf more ++ gap))).count Text.newline := by
        simp only [List.count_append]
        omega
      have hoffset : offset + g.length + token.lexeme.length + (textOf more ++ gap).length =
          offset + (g ++ (token.lexeme ++ (textOf more ++ gap))).length := by
        simp only [List.length_append]
        omega
      rw [htext, List.append_assoc, List.append_assoc, scanFrom_isGap hgap, scanFrom_lexeme hlexeme, hcount,
        ih, hend, hoffset, ← hline]
      cases scanFrom source _ _ (decode rest) <;> rfl

theorem scan_split {text : Text} {parts : List (Text × Token)} {gap rest : Text}
    (h : Split text parts gap rest) (source : Text) :
    scan source text =
      (scanFrom source (1 + (textOf parts ++ gap).count Text.newline) (textOf parts ++ gap).length
        (decode rest)).map (parts.map Prod.snd ++ ·) := by
  obtain ⟨rfl, hlayout⟩ := split_iff.1 h
  rw [scan, scanFrom_layout hlayout, Nat.zero_add]

theorem scan_of_split {text : Text} {parts : List (Text × Token)} {gap : Text}
    (h : Split text parts gap []) (source : Text) :
    scan source text =
      .ok (parts.map Prod.snd ++ [⟨.endOfInput, [], .none, 1 + text.count Text.newline⟩]) := by
  have htext : text = textOf parts ++ gap := by simpa using h.text
  rw [scan_split h, htext, decode_nil, scanFrom]
  rfl

theorem scan_of_stuck {text : Text} {parts : List (Text × Token)} {gap rest : Text} {fault : Fault}
    (h : Split text parts gap rest) (hstuck : Stuck (textOf parts ++ gap).length rest fault)
    (source : Text) :
    scan source text =
      .error ⟨.atLine source (1 + (textOf parts ++ gap).count Text.newline), fault⟩ := by
  rw [scan_split h, scanFrom_stuck hstuck]
  rfl

theorem exists_split (text : Text) :
    ∃ parts gap rest, Split text parts gap rest ∧
      (rest = [] ∨ ∃ fault, Stuck (textOf parts ++ gap).length rest fault) := by
  obtain ⟨parts, gap, rest, htext, hlayout, hend⟩ := exists_layout text 1 0
  rw [Nat.zero_add] at hend
  exact ⟨parts, gap, rest, split_iff.2 ⟨htext, hlayout⟩, hend⟩

theorem exists_endOfInput {source text : Text} {tokens : List Token} (h : scan source text = .ok tokens) :
    ∃ before line, tokens = before ++ [endOfInput line] := by
  obtain ⟨parts, gap, rest, hsplit, rfl | ⟨fault, hstuck⟩⟩ := exists_split text
  · rw [scan_of_split hsplit, Except.ok.injEq] at h
    exact ⟨_, _, h.symm⟩
  · rw [scan_of_stuck hsplit hstuck] at h
    cases h

/-- Before the end of input there are only tokens of the grammar. -/
theorem inClass_of_scan {source text : Text} {tokens : List Token} {line : Int}
    (h : scan source text = .ok (tokens ++ [endOfInput line])) {t : Token} (ht : t ∈ tokens) :
    ∃ cls, InClass cls t.lexeme t.kind t.literal := by
  obtain ⟨parts, gap, rest, hsplit, rfl | ⟨fault, hstuck⟩⟩ := exists_split text
  · rw [scan_of_split hsplit, Except.ok.injEq] at h
    have htokens : tokens = parts.map Prod.snd := (List.append_inj_left' h rfl).symm
    rw [htokens, List.mem_map] at ht
    obtain ⟨⟨gap', t⟩, hmem, rfl⟩ := ht
    obtain ⟨before, after, hparts⟩ := List.append_of_mem hmem
    obtain ⟨-, ⟨-, cls, hclass, -⟩, -⟩ := hsplit.part before gap' t after hparts
    exact ⟨cls, hclass⟩
  · rw [scan_of_stuck hsplit hstuck] at h
    cases h

/-- Scanning gives the tokens of the one way in which a source falls apart into gaps and lexemes, and
fails where it falls apart up to a dead end. -/
theorem scan_decides_grammar (source text : Text) :
    (∀ tokens, scan source text = .ok tokens ↔
      ∃ parts gap, Split text parts gap [] ∧
        tokens = parts.map Prod.snd ++ [⟨.endOfInput, [], .none, 1 + text.count Text.newline⟩]) ∧
    (∀ d, scan source text = .error d ↔
      ∃ parts gap rest fault, Split text parts gap rest ∧
        Stuck (textOf parts ++ gap).length rest fault ∧
        d = ⟨.atLine source (1 + (textOf parts ++ gap).count Text.newline), fault⟩) := by
  constructor
  · intro tokens
    constructor
    · intro h
      -- a source that falls apart up to a dead end would not give tokens
      obtain ⟨parts, gap, rest, hsplit, rfl | ⟨fault, hstuck⟩⟩ := exists_split text
      · rw [scan_of_split hsplit] at h
        exact ⟨parts, gap, hsplit, (Except.ok.inj h).symm⟩
      · rw [scan_of_stuck hsplit hstuck] at h
        cases h
    · rintro ⟨parts, gap, hsplit, rfl⟩
      exact scan_of_split hsplit source
  · intro d
    constructor
    · intro h
      obtain ⟨parts, gap, rest, hsplit, rfl | ⟨fault, hstuck⟩⟩ := exists_split text
      · rw [scan_of_split hsplit] at h
        cases h
      · rw [scan_of_stuck hsplit hstuck] at h
        exact ⟨parts, gap, rest, fault, hsplit, hstuck, (Except.error.inj h).symm⟩
    · rintro ⟨parts, gap, rest, fault, hsplit, hstuck, rfl⟩
      exact scan_of_stuck hsplit hstuck source

end LetScript.Lexical
