import LetScript.Proofs.Lexical.Glyphs
import LetScript.Session.Basic
import LetScript.Settings.Load

/-!
# Echoed values and columns

A text that has been cut to a number of columns takes no more of them, as long as they have room for the mark
at its end. What is kept of the text is the longest beginning that leaves this room. If there is no room for
the mark, nothing is kept and the mark stands alone, wider than it should be. This holds with any ruler that adds
up the columns of single characters and cuts a text where its budget ends.
-/

namespace LetScript

/-! ## Characters -/

namespace Text

theorem shownChars_ofChars_append (cs : List Char) (t : Text) :
    shownChars (ofChars cs ++ t) = cs ++ shownChars t := by
  rw [shownChars, ofChars, Glyph.decode_chars_append, List.map_append, List.map_map]
  exact congrArg (· ++ shownChars t) (List.map_id cs)

end Text

namespace Ruler

/-! ## Columns of characters -/

variable {charWidth : Char → Nat}

@[simp] theorem columns_nil : columns charWidth [] = 0 := rfl

@[simp] theorem columns_cons (c : Char) (cs : List Char) :
    columns charWidth (c :: cs) = charWidth c + columns charWidth cs := rfl

@[simp] theorem columns_append (cs ds : List Char) :
    columns charWidth (cs ++ ds) = columns charWidth cs + columns charWidth ds := by
  induction cs with
  | nil => simp
  | cons c cs ih => simp [ih, Nat.add_assoc]

/-! ## Keeping what fits -/

theorem keepWithin_isPrefix (budget : Int) (cs : List Char) : keepWithin charWidth budget cs <+: cs := by
  induction cs generalizing budget with
  | nil => exact List.prefix_rfl
  | cons c cs ih =>
      rw [keepWithin]
      split
      · exact (List.prefix_cons_inj c).2 (ih _)
      · exact List.nil_prefix

/-- What is kept fits, unless nothing does. -/
theorem keepWithin_fits (budget : Int) (cs : List Char) :
    keepWithin charWidth budget cs = [] ∨ (columns charWidth (keepWithin charWidth budget cs) : Int) ≤ budget := by
  induction cs generalizing budget with
  | nil => exact .inl rfl
  | cons c cs ih =>
      rw [keepWithin]
      split
      · rename_i hc
        right
        rw [columns_cons]
        push_cast
        rcases ih (budget - charWidth c) with hnil | hfits
        · rw [hnil]
          simpa using hc
        · omega
      · exact .inl rfl

/-- No longer beginning fits. -/
theorem length_le_keepWithin {budget : Int} {cs kept : List Char} (hkept : kept <+: cs)
    (hfits : (columns charWidth kept : Int) ≤ budget) :
    kept.length ≤ (keepWithin charWidth budget cs).length := by
  induction cs generalizing budget kept with
  | nil => simp [List.prefix_nil.1 hkept]
  | cons c cs ih =>
      cases kept with
      | nil => simp
      | cons c' kept =>
          obtain ⟨rfl, hrest⟩ := List.cons_prefix_cons.1 hkept
          rw [columns_cons] at hfits
          push_cast at hfits
          have hle := ih hrest (show (columns charWidth kept : Int) ≤ budget - charWidth c' by omega)
          rw [keepWithin, if_pos (by omega), List.length_cons, List.length_cons]
          omega

/-! ## Cutting a text -/

/-- What a ruler has to do: it goes by the columns of single characters. -/
structure Measures (r : Ruler) (charWidth : Char → Nat) : Prop where
  /-- A text takes the columns of its characters together. -/
  width_eq : ∀ t, r.width t = columns charWidth t.shownChars
  /-- Three dots take three columns. -/
  width_dots : r.width (Text.ofString "...") = 3
  /-- Of a text that is too wide, the characters are kept from the front for as long as they take no more columns
  than the mark leaves, and the mark is put behind them. -/
  truncate_eq : ∀ t limit mark, limit < (r.width t : Int) →
    r.truncate t limit mark = Text.ofChars (keepWithin charWidth (limit - r.width mark) t.shownChars) ++ mark

theorem ofCharWidth_measures (hdots : columns charWidth (Text.ofString "...").shownChars = 3) :
    (ofCharWidth charWidth).Measures charWidth where
  width_eq _ := rfl
  width_dots := hdots
  truncate_eq _ _ _ h := if_neg (Int.not_le.2 h)

theorem terminal_measures : terminal.Measures Text.charWidth := ofCharWidth_measures (by decide)

variable {r : Ruler}

theorem Measures.width_cut (hr : r.Measures charWidth) (kept : List Char) :
    r.width (Text.ofChars kept ++ Text.ofString "...") = columns charWidth kept + 3 := by
  rw [hr.width_eq, Text.shownChars_ofChars_append, columns_append, ← hr.width_eq, hr.width_dots]

theorem Measures.truncate_dots (hr : r.Measures charWidth) {t : Text} {limit : Int} (h : limit < (r.width t : Int)) :
    r.truncate t limit (Text.ofString "...") =
      Text.ofChars (keepWithin charWidth (limit - 3) t.shownChars) ++ Text.ofString "..." := by
  rw [hr.truncate_eq t limit _ h, hr.width_dots]
  rfl

end Ruler

namespace Session

open Ruler

theorem echo_of_le {s : Session} {v : Value} (h : (s.ruler.width v.display : Int) ≤ s.settings.maxEchoWidth) :
    s.echo v = v.display :=
  if_neg fun hcut => Int.not_le.2 hcut.2 h

theorem echo_of_lt {s : Session} {v : Value} (hw : 0 < s.settings.maxEchoWidth)
    (h : s.settings.maxEchoWidth < (s.ruler.width v.display : Int)) :
    s.echo v = s.ruler.truncate v.display s.settings.maxEchoWidth (Text.ofString "...") :=
  if_pos ⟨hw, h⟩

/-- A session whose settings allow a positive number of columns for an echoed value, as all that have been
checked may. A value that fits is echoed unchanged. Of any other the longest beginning is kept that leaves
room for three dots behind it. So the echo takes no more columns than allowed exactly if there is room for the
dots, or no need for them. -/
theorem echo_fits_iff_room_for_dots (s : Session) {charWidth : Char → Nat} (hr : s.ruler.Measures charWidth)
    (hw : 0 < s.settings.maxEchoWidth) (v : Value) :
    let w := s.settings.maxEchoWidth
    let width (t : Text) : Int := s.ruler.width t
    (∀ path, s.settings.sourceName ≠ [] → Settings.validate path s.settings = .ok s.settings) ∧
    (width (s.echo v) ≤ w ↔ 3 ≤ w ∨ width v.display ≤ w) ∧
    (width v.display ≤ w → s.echo v = v.display) ∧
    (w < width v.display → ∃ kept, kept <+: v.display.shownChars ∧
      s.echo v = Text.ofChars kept ++ Text.ofString "..." ∧
      width (s.echo v) = columns charWidth kept + 3 ∧ (kept = [] ∨ columns charWidth kept + 3 ≤ w) ∧
      ∀ other, other <+: v.display.shownChars → columns charWidth other + 3 ≤ w →
        other.length ≤ kept.length) := by
  intro w width
  have hcut (hwide : w < width v.display) :
      s.echo v = Text.ofChars (keepWithin charWidth (w - 3) v.display.shownChars) ++ Text.ofString "..." := by
    rw [echo_of_lt hw hwide, hr.truncate_dots hwide]
  have hwidth (hwide : w < width v.display) :
      width (s.echo v) = columns charWidth (keepWithin charWidth (w - 3) v.display.shownChars) + 3 := by
    rw [hcut hwide]
    exact congrArg Int.ofNat (hr.width_cut _)
  have hfits := @keepWithin_fits charWidth (w - 3) v.display.shownChars
  refine ⟨fun path hname => ?_, ?_, echo_of_le, fun hwide => ?_⟩
  · rw [Settings.validate, if_neg hname, if_neg (by omega)]
  · by_cases hle : width v.display ≤ w
    · rw [echo_of_le hle]
      exact ⟨.inr, fun _ => hle⟩
    · rw [hwidth (by omega)]
      constructor
      · intro h
        exact .inl (by omega)
      · rintro (hroom | hle')
        · rcases hfits with hnil | hfits
          · rw [hnil]
            simpa using hroom
          · omega
        · exact absurd hle' hle
  · exact ⟨_, keepWithin_isPrefix (w - 3) _, hcut hwide, hwidth hwide, hfits.imp_right fun h => by omega,
      fun other hother h => length_le_keepWithin hother (by omega)⟩

/-- Seven columns for a string with a wide character, an accent that takes none, and a stray byte. -/
theorem echo_fits_iff_room_for_dots_wide :
    let s := new { Settings.default with maxEchoWidth := 7 } .unlimited
    let v := Value.ofText (Text.ofString "\u5B57e\u0301" ++ [0xFF] ++ Text.ofString "\u5B57")
    s.ruler.Measures Text.charWidth ∧ 0 < s.settings.maxEchoWidth ∧ (s.ruler.width (s.echo v) : Int) ≤ 7 ∧
      ∃ kept, kept <+: v.display.shownChars ∧ s.echo v = Text.ofChars kept ++ Text.ofString "..." ∧
        4 ≤ kept.length ∧ (s.ruler.width (s.echo v) : Int) = columns Text.charWidth kept + 3 := by
  intro s v
  have hw : 0 < s.settings.maxEchoWidth := by decide
  have hwide : s.settings.maxEchoWidth < (s.ruler.width v.display : Int) := by decide +kernel
  obtain ⟨-, hfits, -, hcut⟩ := echo_fits_iff_room_for_dots s terminal_measures hw v
  obtain ⟨kept, hkept, hecho, hwidth, -, hlongest⟩ := hcut hwide
  have hfour := hlongest (v.display.shownChars.take 4) (List.take_prefix ..) (by decide +kernel)
  have hlength : (v.display.shownChars.take 4).length = 4 := by decide +kernel
  exact ⟨terminal_measures, hw, hfits.2 (.inl (by decide)), kept, hkept, hecho, by omega, hwidth⟩

/-- Two columns are a setting that passes the check, and the dots take three. -/
theorem echo_exceeds_two_columns :
    let s := new { Settings.default with maxEchoWidth := 2 } .unlimited
    let v := Value.ofText (Text.ofString "ab")
    s.ruler.Measures Text.charWidth ∧ (Settings.validate [] s.settings).toOption.isSome ∧
      s.echo v = Text.ofString "..." ∧ s.settings.maxEchoWidth < s.ruler.width (s.echo v) :=
  ⟨terminal_measures, by decide +kernel⟩

end Session

end LetScript
