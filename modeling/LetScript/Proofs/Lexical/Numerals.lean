import LetScript.Proofs.Decimal.Bits
import LetScript.Proofs.Decimal.Rounding
import LetScript.Proofs.Lexical.Scan

/-!
# Numbers and their texts

A number is written with enough digits to be read back. The text of a finite number without a sign is a
lexeme for it, and so is that of every number that a lexeme can denote, unless it is too large.
-/

namespace LetScript.Lexical

open Binary64

theorem inClass_numeral {numeral whole part : List Char} (h : Decimal.Digits numeral whole part) :
    InClass .number (numeral.flatMap Text.ofChar) .number (.number (numberOfDigits whole part)) := by
  obtain ⟨hne, hwhole, hpart, rfl⟩ := h
  obtain ⟨c, digits, rfl⟩ := List.exists_cons_of_ne_nil hne
  cases part with
  | nil => exact .whole hwhole
  | cons p part =>
      have hclass := InClass.fraction hwhole hpart
      rw [List.append_assoc] at hclass
      rw [if_neg (List.cons_ne_nil p part), List.flatMap_append]
      exact hclass

theorem inClass_shortest {magnitude : Nat} (h : magnitude < infinity) :
    InClass .number ((shortest magnitude).numeral.flatMap Text.ofChar) .number
      (.number (toFloat false magnitude)) := by
  obtain ⟨whole, part, hdigits, hvalue⟩ := (shortest magnitude).exists_digits_numeral
  have hnumber : numberOfDigits whole part = toFloat false magnitude := by
    rw [numberOfDigits, ofDecimal_eq_of_sameValue hvalue, ofDecimal_shortest h]
  rw [← hnumber]
  exact inClass_numeral hdigits

theorem ofDecimal_le_infinity (d : Decimal) : ofDecimal d ≤ infinity := Nat.min_le_right _ _

theorem InClass.exists_magnitude {cls : Class} {lexeme : Text} {kind : Token.Kind} {x : Float}
    (h : InClass cls lexeme kind (.number x)) : ∃ magnitude ≤ infinity, x = toFloat false magnitude := by
  cases h with
  | whole => exact ⟨_, ofDecimal_le_infinity _, rfl⟩
  | fraction => exact ⟨_, ofDecimal_le_infinity _, rfl⟩

theorem numberText_toFloat {magnitude : Nat} (h : magnitude < infinity) :
    numberText (toFloat false magnitude) = (shortest magnitude).numeral.flatMap Text.ofChar := by
  have hlt : magnitude < signBit := Nat.lt_of_lt_of_le h (by decide)
  have hbits := toNat_toBits_toFloat h
  have hmagnitude : Binary64.magnitude (toFloat false magnitude) = magnitude := by
    rw [Binary64.magnitude, hbits, Nat.mod_eq_of_lt hlt]
  have hsign : isNegative (toFloat false magnitude) = false := by
    rw [isNegative, hbits, decide_eq_false (Nat.not_le_of_lt hlt)]
  rw [numberText, hmagnitude, hsign, if_neg (by omega), if_neg (by omega)]
  rfl

/-- The number of a lexeme is written as a lexeme for it, or it is infinite. -/
theorem InClass.numberText_cases {cls : Class} {lexeme : Text} {kind : Token.Kind} {x : Float}
    (h : InClass cls lexeme kind (.number x)) :
    InClass .number (numberText x) .number (.number x) ∨
      numberText x = Text.ofString "+Inf" ∧ x = toFloat false infinity := by
  obtain ⟨magnitude, hle, rfl⟩ := h.exists_magnitude
  rcases Nat.lt_or_eq_of_le hle with hlt | rfl
  · rw [numberText_toFloat hlt]
    exact .inl (inClass_shortest hlt)
  · exact .inr ⟨by decide +kernel, rfl⟩

end LetScript.Lexical
