import LetScript.Proofs.Lexical.Seam
import LetScript.Text.Trim

/-!
# Texts further down in a source

The tokens of a text depend neither on the name of the source nor on where in it the text stands, but for
their lines. So texts that are joined by line feeds have the tokens of the single texts, each moved down. A
text that cannot be scanned has the same fault further down, too, where the line and, if the fault says one,
the byte are counted from the start of the source.
-/

namespace LetScript

/-- The token, so many lines further down. -/
def Token.moved (k : Int) (t : Token) : Token := { t with line := t.line + k }

@[simp] theorem Token.moved_kind (k : Int) (t : Token) : (t.moved k).kind = t.kind := rfl

@[simp] theorem Token.moved_lexeme (k : Int) (t : Token) : (t.moved k).lexeme = t.lexeme := rfl

theorem Token.moved_zero (t : Token) : t.moved 0 = t := by simp [Token.moved]

theorem Token.map_moved_zero (ts : List Token) : ts.map (Token.moved 0) = ts := by
  rw [List.map_congr_left fun t _ => t.moved_zero, List.map_id']

namespace Lexical

open Glyph Token

/-- Where a piece starts matters only if there is none. -/
theorem piece_offset {offset : Nat} {g : Glyph} {rest : List Glyph} {x : Piece × Nat}
    (h : piece offset g rest = .ok x) (offset' : Nat) : piece offset' g rest = .ok x := by
  cases g with
  | stray b => cases h
  | char c =>
      -- the offset is mentioned in one fault only
      simp only [piece] at h ⊢
      repeat' split at h
      all_goals simp_all

theorem tokens_moved (p : Piece) (line k : Nat) (gs : List Glyph) :
    p.tokens (line + k) gs = (p.tokens line gs).map (Token.moved k) := by
  cases p with
  | gap => rfl
  | token kind literal => simp [Piece.tokens, Token.moved]

/-- Further down in a source, whatever its name, there are the same tokens. -/
theorem scanFrom_moved {source : Text} {line offset : Nat} {gs : List Glyph} {tokens : List Token}
    (h : scanFrom source line offset gs = .ok tokens) (source' : Text) (k offset' : Nat) :
    scanFrom source' (line + k) offset' gs = .ok (tokens.map (Token.moved k)) := by
  obtain ⟨n, hn⟩ : ∃ n, gs.length = n := ⟨_, rfl⟩
  induction n using Nat.strongRecOn generalizing line offset offset' gs tokens with
  | ind n ih =>
      cases gs with
      | nil =>
          rw [scanFrom, Except.ok.injEq] at h ⊢
          rw [← h]
          simp [Token.moved, endOfInput]
      | cons g rest =>
          rw [scanFrom] at h ⊢
          cases hpiece : piece offset g rest with
          | error fault =>
              rw [hpiece] at h
              cases h
          | ok x =>
              obtain ⟨p, reach⟩ := x
              rw [hpiece] at h
              rw [piece_offset hpiece offset']
              dsimp only at h ⊢
              cases hrest : scanFrom source (line + lineFeeds (g :: rest.take reach))
                  (offset + ((g :: rest.take reach).flatMap bytes).length) (rest.drop reach) with
              | error d =>
                  rw [hrest] at h
                  cases h
              | ok more =>
                  rw [hrest] at h
                  cases h
                  have hlt : (rest.drop reach).length < n := by
                    rw [List.length_drop, ← hn, List.length_cons]
                    omega
                  rw [Nat.add_right_comm, ih _ hlt hrest _ rfl, tokens_moved]
                  simp [Except.map]

theorem scan_source {source text : Text} {tokens : List Token} (h : scan source text = .ok tokens)
    (source' : Text) : scan source' text = .ok tokens := by
  have hmoved := scanFrom_moved h source' 0 0
  rwa [Int.natCast_zero, Token.map_moved_zero] at hmoved

/-- After a line feed come the tokens of the second text, further down by the lines of the first. -/
theorem scan_append_newline {source a b : Text} {tokens more : List Token} {line : Int}
    (ha : scan source a = .ok (tokens ++ [endOfInput line])) (hb : scan source b = .ok more) :
    scan source (a ++ Text.newline :: b) =
      .ok (tokens ++ more.map (Token.moved ↑(a.count Text.newline + 1))) := by
  cases scanned source a with
  | whole tokens' hscan hlonger =>
      rw [hscan, Except.ok.injEq] at ha
      obtain ⟨rfl, -⟩ := List.append_inj' ha rfl
      rw [hlonger b, Nat.add_assoc, scanFrom_moved hb source _ _]
      rfl
  | dead _ hscan _ _ =>
      rw [hscan] at ha
      cases ha
  | unclosed _ hscan _ _ =>
      rw [hscan] at ha
      cases ha

theorem scan_nil (source : Text) : scan source [] = .ok [endOfInput 1] := by
  rw [scan]
  exact scanFrom.eq_1 ..

/-- Behind the end of a line the scanner goes on as at the start of a source, but for its counts. -/
theorem scan_append_eq {source a : Text} {tokens : List Token} {line : Int}
    (hend : a = [] ∨ a.getLast? = some Text.newline)
    (ha : scan source a = .ok (tokens ++ [endOfInput line])) (b : Text) :
    scan source (a ++ b) =
      (scanFrom source (1 + a.count Text.newline) a.length (decode b)).map (tokens ++ ·) := by
  rcases hend with rfl | hlast
  · rw [scan_nil, Except.ok.injEq, ← List.nil_append [endOfInput 1]] at ha
    obtain ⟨rfl, -⟩ := List.append_inj' ha rfl
    exact (congrFun Except.map_id _).symm
  · obtain ⟨a, rfl⟩ := List.getLast?_eq_some_iff.1 hlast
    have hcount : 1 + (a ++ [Text.newline]).count Text.newline = 1 + a.count Text.newline + 1 := by
      simp [Nat.add_assoc]
    rw [hcount, List.length_append, List.append_assoc, List.singleton_append]
    -- the last line feed is a gap, so the tokens are those of what precedes it
    cases scanned source a with
    | whole tokens' _ hlonger =>
        have hgap := hlonger []
        rw [ha, decode_nil, scanFrom] at hgap
        obtain ⟨rfl, -⟩ := List.append_inj' (Except.ok.inj hgap) rfl
        exact hlonger b
    | dead _ _ hnewline _ =>
        rw [hnewline []] at ha
        cases ha
    | unclosed _ _ hnewline _ =>
        rw [hnewline] at ha
        cases ha

/-- No token is formed across the end of a line. -/
theorem scan_append {source a b : Text} {tokens more : List Token} {line : Int}
    (hend : a = [] ∨ a.getLast? = some Text.newline)
    (ha : scan source a = .ok (tokens ++ [endOfInput line])) (hb : scan source b = .ok more) :
    scan source (a ++ b) = .ok (tokens ++ more.map (Token.moved ↑(a.count Text.newline))) := by
  rw [scan_append_eq hend ha, scanFrom_moved hb source _ _]
  rfl

end Lexical

/-! ## Faults -/

/-- The fault, so many bytes further on. Only one kind of fault says where it is. -/
def Fault.furtherOn (n : Nat) : Fault → Fault
  | invalidEncoding offset => invalidEncoding (offset + n)
  | fault => fault

/-- The diagnostic, so many lines further down and so many bytes further on. -/
def Diagnostic.furtherDown (k n : Nat) (d : Diagnostic) : Diagnostic :=
  ⟨{ d.context with line := d.context.line + k }, d.fault.furtherOn n⟩

theorem Fault.furtherOn_eq_self {fault : Fault} (h : ∀ offset, fault ≠ invalidEncoding offset) (n : Nat) :
    fault.furtherOn n = fault := by
  cases fault with
  | invalidEncoding offset => exact absurd rfl (h offset)
  | _ => rfl

theorem Fault.furtherOn_cls (n : Nat) (fault : Fault) : (fault.furtherOn n).cls = fault.cls := by
  cases fault <;> rfl

theorem Fault.furtherOn_incomplete (n : Nat) (fault : Fault) :
    (fault.furtherOn n).incomplete = fault.incomplete := by
  cases fault <;> rfl

namespace Lexical

open Glyph Token

theorem stringPiece_error {gs : List Glyph} {fault : Fault} (h : stringPiece gs = .error fault) :
    fault = .unterminatedString := by
  simp only [stringPiece] at h
  split at h <;> cases h
  rfl

theorem piece_error_furtherOn {offset : Nat} {g : Glyph} {rest : List Glyph} {fault : Fault}
    (h : piece offset g rest = .error fault) (n : Nat) :
    piece (offset + n) g rest = .error (fault.furtherOn n) := by
  cases g with
  | stray b =>
      cases h
      rfl
  | char c =>
      simp only [piece] at h ⊢
      split at h
      · cases h
      · split at h <;> cases h
      · -- three tests are left that can fail: an open string, the replacement character, any other
        split_ifs at h ⊢
        · cases stringPiece_error h
          exact h
        · cases h
          rfl
        · cases h
          rfl

/-- Further down in a source there is the same fault. -/
theorem scanFrom_error_furtherDown {source : Text} {line offset : Nat} {gs : List Glyph} {d : Diagnostic}
    (h : scanFrom source line offset gs = .error d) (k n : Nat) :
    scanFrom source (line + k) (offset + n) gs = .error (d.furtherDown k n) := by
  fun_induction scanFrom source line offset gs with
  | case1 => cases h
  | case2 line offset g rest fault hpiece =>
      cases h
      rw [scanFrom, piece_error_furtherOn hpiece]
      simp [Diagnostic.furtherDown, Context.atLine]
  | case3 line offset g rest p reach hpiece used ih =>
      cases hrest : scanFrom source (line + lineFeeds used) (offset + (used.flatMap bytes).length)
          (rest.drop reach) with
      | ok more =>
          rw [hrest] at h
          cases h
      | error d' =>
          rw [hrest] at h ih
          cases h
          rw [scanFrom, piece_offset hpiece]
          dsimp only
          rw [Nat.add_right_comm line, Nat.add_right_comm offset, ih rfl]
          rfl

/-- A source that is cut at the end of a line is scanned part by part. The tokens of the second part are
further down by the lines of the first. If the second part fails, the source fails for the same reason,
further down by these lines, and at a byte further on by the length of the first part if the reason names
one. -/
theorem scan_is_compositional_at_line_ends (source : Text) {a : Text} {tokens : List Token}
    (hend : a = [] ∨ a.getLast? = some Text.newline) (ha : scan source a = .ok tokens) (b : Text) :
    (∀ more, scan source b = .ok more →
      scan source (a ++ b) = .ok (tokens.dropLast ++ more.map (Token.moved (a.count Text.newline)))) ∧
    ∀ d, scan source b = .error d →
      ∃ d', scan source (a ++ b) = .error d' ∧
        d'.context = { d.context with line := d.context.line + a.count Text.newline } ∧
        d'.fault.cls = d.fault.cls ∧ d'.fault.incomplete = d.fault.incomplete ∧
        (∀ offset, d.fault = .invalidEncoding offset → d'.fault = .invalidEncoding (offset + a.length)) ∧
        ((∀ offset, d.fault ≠ .invalidEncoding offset) → d'.fault.reason = d.fault.reason) := by
  obtain ⟨before, line, rfl⟩ := exists_endOfInput ha
  rw [List.dropLast_concat]
  refine ⟨fun more hb => scan_append hend ha hb, fun d hb => ?_⟩
  have hmoved := scanFrom_error_furtherDown hb (a.count Text.newline) a.length
  rw [Nat.zero_add] at hmoved
  refine ⟨d.furtherDown (a.count Text.newline) a.length, ?_, rfl, Fault.furtherOn_cls _ _,
    Fault.furtherOn_incomplete _ _, fun offset hfault => ?_, fun hfault => ?_⟩
  · rw [scan_append_eq hend ha, hmoved]
    rfl
  · rw [Diagnostic.furtherDown, hfault]
    rfl
  · rw [Diagnostic.furtherDown, Fault.furtherOn_eq_self hfault]

/-- The place and the byte that a failure of the scanner names as no character. -/
def strayPlace? : Except Diagnostic (List Token) → Option (Int × Nat)
  | .error ⟨context, .invalidEncoding offset⟩ => some (context.line, offset)
  | _ => none

theorem exists_of_strayPlace? {x : Except Diagnostic (List Token)} {line : Int} {offset : Nat}
    (h : strayPlace? x = some (line, offset)) :
    ∃ d, x = .error d ∧ d.context.line = line ∧ d.fault = .invalidEncoding offset := by
  unfold strayPlace? at h
  split at h
  · cases h
    exact ⟨_, rfl, rfl, rfl⟩
  · cases h

/-- A string over two lines, and after it a line with a byte that is no character. -/
theorem scan_is_compositional_at_line_ends_stray :
    let a := Text.ofString "let s = \"x\n//y\";\n"
    let b := Text.ofString "\n s " ++ [0xFF]
    (a = [] ∨ a.getLast? = some Text.newline) ∧ ∃ tokens, scan [] a = .ok tokens ∧
      ∃ d, scan [] b = .error d ∧ d.context.line = 2 ∧ d.fault = .invalidEncoding 4 ∧
        ∃ d', scan [] (a ++ b) = .error d' ∧ d'.context.line = 4 ∧ d'.fault = .invalidEncoding 21 := by
  intro a b
  have hend : a = [] ∨ a.getLast? = some Text.newline := .inr (by decide)
  have hsome : (scan [] a).toOption.isSome := by decide +kernel
  have hstray : strayPlace? (scan [] b) = some (2, 4) := by decide +kernel
  cases ha : scan [] a with
  | error d =>
      rw [ha] at hsome
      cases hsome
  | ok tokens =>
      obtain ⟨d, hb, hline, hfault⟩ := exists_of_strayPlace? hstray
      obtain ⟨d', hd', hcontext, -, -, hstray', -⟩ :=
        (scan_is_compositional_at_line_ends [] hend ha b).2 d hb
      refine ⟨hend, tokens, rfl, d, hb, hline, hfault, d', hd', ?_, hstray' 4 hfault⟩
      rw [hcontext, hline]
      rfl

/-! ## Colons -/

theorem exists_range_of_contains {ranges : Text.Ranges} {n : Nat} (h : ranges.contains n) :
    ∃ range ∈ ranges, range.1 ≤ n ∧ n ≤ range.2 := by
  induction ranges with
  | nil => cases h
  | cons range rest ih =>
      obtain ⟨low, high⟩ := range
      simp only [Text.Ranges.contains] at h
      split at h
      · cases h
      · rename_i hlow
        rcases Bool.or_eq_true_iff.1 h with hhigh | hrest
        · exact ⟨_, List.mem_cons_self, Nat.le_of_not_lt hlow, of_decide_eq_true hhigh⟩
        · obtain ⟨range, hmem, hrange⟩ := ih hrest
          exact ⟨range, List.mem_cons_of_mem _ hmem, hrange⟩

theorem isLetter_eq_false_of_isBlank {c : Char} (h : Text.isBlank c) : Text.isLetter c = false := by
  have hblanks : ∀ range ∈ Text.blanks, ∀ n ∈ List.range' range.1 (range.2 + 1 - range.1),
      Text.letters.contains n = false := by decide +kernel
  obtain ⟨range, hmem, hlow, hhigh⟩ := exists_range_of_contains h
  exact hblanks range hmem c.toNat (List.mem_range'_1.2 ⟨hlow, by omega⟩)

theorem isAsciiDigit_eq_false_of_isBlank {c : Char} (h : Text.isBlank c) : Text.isAsciiDigit c = false := by
  have hblanks : ∀ range ∈ Text.blanks, range.2 < '0'.toNat ∨ '9'.toNat < range.1 := by decide
  obtain ⟨range, hmem, hlow, hhigh⟩ := exists_range_of_contains h
  have hrange := hblanks range hmem
  rw [← Bool.not_eq_true]
  intro hdigit
  simp only [Text.isAsciiDigit, Bool.and_eq_true, decide_eq_true_eq] at hdigit
  have hzero : '0'.toNat ≤ c.toNat := UInt32.le_iff_toNat_le.1 hdigit.1
  have hnine : c.toNat ≤ '9'.toNat := UInt32.le_iff_toNat_le.1 hdigit.2
  omega

/-- White space that separates no tokens starts none either. -/
theorem not_starts_of_isBlank {c : Char} (h : Text.isBlank c) (hblank : c ∉ blankChars) : ¬ Starts c := by
  have hquote : c ∉ ['"'] := not_mem_of_all (by decide) h
  simp only [Starts, not_or]
  refine ⟨hblank, not_mem_of_all (by decide) h, not_mem_of_all (by decide) h, by simpa using hquote, ?_, ?_⟩
  · simp [isAsciiDigit_eq_false_of_isBlank h]
  · simp [isLetter_eq_false_of_isBlank h]

theorem piece_of_not_starts {c : Char} (h : ¬ Starts c) (offset : Nat) (gs : List Glyph) :
    ∃ fault, piece offset (.char c) gs = .error fault := by
  simp only [Starts, not_or] at h
  obtain ⟨hblank, hpunct, hcomp, hquote, hdigit, hletter⟩ := h
  rw [piece_other hpunct hcomp hquote hblank, if_neg hdigit, if_neg hletter]
  split <;> exact ⟨_, rfl⟩

theorem scanFrom_of_not_starts {c : Char} (h : ¬ Starts c) (source : Text) (line offset : Nat)
    (gs : List Glyph) : ∃ d, scanFrom source line offset (.char c :: gs) = .error d := by
  obtain ⟨fault, hfault⟩ := piece_of_not_starts h offset gs
  rw [scanFrom, hfault]
  exact ⟨_, rfl⟩

/-- No source has a colon as its first character that is no white space. -/
theorem scanFrom_colon (source : Text) {blanks : List Glyph} (h : ∀ g ∈ blanks, Text.isBlankGlyph g)
    (line offset : Nat) (gs : List Glyph) :
    ∃ d, scanFrom source line offset (blanks ++ .char ':' :: gs) = .error d := by
  induction blanks generalizing line offset with
  | nil =>
      have hletter : ¬ Text.isLetter ':' := by decide +kernel
      refine scanFrom_of_not_starts ?_ source line offset gs
      simp only [Starts, not_or]
      exact ⟨by decide, by decide, by decide, by decide, by decide, hletter⟩
  | cons g blanks ih =>
      obtain ⟨hg, hblanks⟩ := List.forall_mem_cons.1 h
      cases g with
      | stray b => cases hg
      | char c =>
          by_cases hc : c ∈ blankChars
          · obtain ⟨d, hd⟩ := ih hblanks (line + lineFeeds [.char c])
              (offset + ([Glyph.char c].flatMap bytes).length)
            rw [List.cons_append, scanFrom, piece_blank hc]
            simp only [List.take_zero, List.drop_zero]
            rw [hd]
            exact ⟨d, rfl⟩
          · exact scanFrom_of_not_starts (not_starts_of_isBlank hg hc) source line offset _

theorem exists_decode_eq_of_trim {text : Text} (h : (Text.trim text).head? = some 0x3A) :
    ∃ blanks gs, decode text = blanks ++ .char ':' :: gs ∧ ∀ g ∈ blanks, Text.isBlankGlyph g := by
  obtain ⟨trimmed, htrimmed⟩ : ∃ trimmed, trimmed =
      (((decode text).dropWhile Text.isBlankGlyph).reverse.dropWhile Text.isBlankGlyph).reverse := ⟨_, rfl⟩
  have hprefix : trimmed <+: (decode text).dropWhile Text.isBlankGlyph := by
    rw [htrimmed, ← List.reverse_suffix, List.reverse_reverse]
    exact List.dropWhile_suffix _
  obtain ⟨after, hafter⟩ := hprefix
  have hsplit := List.takeWhile_append_dropWhile (p := Text.isBlankGlyph) (l := decode text)
  have hhead : (trimmed.flatMap bytes).head? = some 0x3A := by rw [htrimmed]; exact h
  cases trimmed with
  | nil => cases hhead
  | cons g more =>
      rw [← hafter] at hsplit
      have hmem : g ∈ decode text := by rw [← hsplit]; simp
      have hbytes : 0x3A ∈ g.bytes := by
        rw [List.flatMap_cons] at hhead
        cases g with
        | stray b => simpa [bytes] using hhead.symm
        | char c =>
            obtain ⟨b, bs, hc⟩ := List.exists_cons_of_ne_nil (ofChar_ne_nil c)
            simp only [bytes, hc, List.cons_append, List.head?_cons, Option.some.injEq] at hhead ⊢
            rw [hhead]
            exact List.mem_cons_self
      have hcolon : Text.ofChar ':' = [0x3A] := by decide
      rw [mem_bytes_iff (isProper_of_mem_decode hmem) hcolon (by decide)] at hbytes
      subst hbytes
      exact ⟨_, more ++ after, hsplit.symm, fun g hg => List.mem_takeWhile_imp hg⟩

end Lexical

end LetScript
