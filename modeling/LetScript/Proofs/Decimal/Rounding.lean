import Mathlib
import LetScript.Decimal.Shortest
import LetScript.Text.Digit

/-!
# Decimals that read back

Rounding looks at the value of a decimal only, and a magnitude that is written out exactly is rounded to
itself. So the shortest decimal of a finite magnitude is read back as this magnitude, and so is its numeral.
-/

namespace LetScript

namespace Decimal

/-- Two decimals that stand for the same number. -/
def SameValue (d d' : Decimal) : Prop := d.fraction.1 * d'.fraction.2 = d'.fraction.1 * d.fraction.2

theorem fraction_pos (d : Decimal) : 0 < d.fraction.2 := Nat.pow_pos (by decide)

end Decimal

namespace Binary64

/-! ## Rounding -/

theorem roundDiv_mul_right (num den : Nat) {c : Nat} (hc : 0 < c) :
    roundDiv (num * c) (den * c) = roundDiv num den := by
  simp only [roundDiv]
  rw [Nat.mul_div_mul_right _ _ hc, Nat.mul_mod_mul_right, ← Nat.mul_assoc]
  simp only [Nat.mul_lt_mul_right hc]

theorem roundDiv_mul_self (q : Nat) {den : Nat} (h : 0 < den) : roundDiv (q * den) den = q := by
  simp only [roundDiv]
  rw [Nat.mul_div_cancel _ h, Nat.mul_mod_left, if_pos (by omega)]

theorem nearest_mul_right (num den : Nat) {c : Nat} (hc : 0 < c) :
    nearest (num * c) (den * c) = nearest num den := by
  simp only [nearest]
  rw [Nat.mul_right_comm num c, Nat.mul_div_mul_right _ _ hc, Nat.mul_right_comm den c,
    roundDiv_mul_right _ _ hc]

theorem ofDecimal_eq_of_sameValue {d d' : Decimal} (h : d.SameValue d') : ofDecimal d = ofDecimal d' :=
  calc nearest d.fraction.1 d.fraction.2
    _ = nearest (d.fraction.1 * d'.fraction.2) (d.fraction.2 * d'.fraction.2) :=
      (nearest_mul_right _ _ d'.fraction_pos).symm
    _ = nearest (d'.fraction.1 * d.fraction.2) (d'.fraction.2 * d.fraction.2) := by
      rw [h, Nat.mul_comm d.fraction.2]
    _ = nearest d'.fraction.1 d'.fraction.2 := nearest_mul_right _ _ d.fraction_pos

/-! ## Exact decimals -/

theorem significand_lt (magnitude : Nat) : significand magnitude < 2 ^ 53 := by
  simp only [significand, binade, show binadeSteps = 2 ^ 52 from rfl]
  omega

theorem significand_add (magnitude : Nat) :
    significand magnitude + binade magnitude * binadeSteps = magnitude := by
  simp only [significand, binade, show binadeSteps = 2 ^ 52 from rfl]
  omega

/-- Above the lowest binade a significand has all of its bits. -/
theorem binade_eq_zero_or (magnitude : Nat) : binade magnitude = 0 ∨ 2 ^ 52 ≤ significand magnitude := by
  simp only [significand, binade, show binadeSteps = 2 ^ 52 from rfl]
  omega

theorem log2_scaled {s k : Nat} (hs : s < 2 ^ 53) (hk : k = 0 ∨ 2 ^ 52 ≤ s) :
    (s * 2 ^ k).log2 - 52 = k := by
  by_cases hlow : s < 2 ^ 52
  · obtain rfl : k = 0 := hk.resolve_right (by omega)
    rw [Nat.pow_zero, Nat.mul_one]
    by_cases hzero : s = 0
    · rw [hzero]
      rfl
    · have hlog := (Nat.log2_lt hzero).2 hlow
      omega
  · have hpos : 0 < 2 ^ k := Nat.pow_pos (by decide)
    have hne : s * 2 ^ k ≠ 0 := Nat.mul_ne_zero (by omega) (by omega)
    have hlog : (s * 2 ^ k).log2 = 52 + k := by
      rw [Nat.log2_eq_iff hne, Nat.add_right_comm, Nat.pow_add, Nat.pow_add]
      exact ⟨Nat.mul_le_mul_right _ (by omega), Nat.mul_lt_mul_of_pos_right hs hpos⟩
    omega

/-- A number of spacings that a binade has is not rounded. -/
theorem nearest_of_scaled {num den s k : Nat} (hden : 0 < den)
    (h : num * 2 ^ 1074 = s * 2 ^ k * den) (hs : s < 2 ^ 53) (hk : k = 0 ∨ 2 ^ 52 ≤ s) :
    nearest num den = min (s + k * binadeSteps) infinity := by
  simp only [nearest, Nat.pow_eq, -Nat.reducePow]
  generalize 1074 = lowest at h ⊢
  rw [h, Nat.mul_div_cancel _ hden, log2_scaled hs hk]
  have hpos : 0 < den * 2 ^ k := Nat.mul_pos hden (Nat.pow_pos (by decide))
  rw [Nat.mul_assoc, Nat.mul_comm (2 ^ k) den, roundDiv_mul_self s hpos]

theorem fraction_exact (magnitude : Nat) :
    (exact magnitude).fraction.1 * 2 ^ 1074 =
      significand magnitude * 2 ^ binade magnitude * (exact magnitude).fraction.2 := by
  simp only [exact, Nat.pow_eq, -Nat.reducePow]
  generalize significand magnitude = s, binade magnitude = k, 1074 = lowest
  split
  · rename_i hk
    obtain ⟨n, rfl⟩ := Nat.exists_eq_add_of_le hk
    simp only [Decimal.fraction, Nat.pow_eq, Int.toNat_zero, Int.neg_zero, Nat.pow_zero, Nat.mul_one,
      Nat.add_sub_cancel_left]
    rw [Nat.mul_assoc, ← Nat.pow_add, Nat.add_comm n]
  · rename_i hk
    obtain ⟨n, hn⟩ := Nat.exists_eq_add_of_le (Nat.le_of_not_le hk)
    rw [hn, Nat.add_sub_cancel_left]
    simp only [Decimal.fraction, Nat.pow_eq, Int.neg_neg, Int.toNat_natCast, Int.toNat_neg_natCast,
      Nat.pow_zero, Nat.mul_one]
    -- ten is five times two, and the powers of two add up
    rw [show (10 : Nat) = 5 * 2 from rfl, Nat.mul_pow, Nat.pow_add]
    simp only [Nat.mul_assoc, Nat.mul_comm, Nat.mul_left_comm]

theorem ofDecimal_exact {magnitude : Nat} (h : magnitude < infinity) :
    ofDecimal (exact magnitude) = magnitude := by
  have hnearest := nearest_of_scaled (exact magnitude).fraction_pos (fraction_exact magnitude)
    (significand_lt magnitude) (binade_eq_zero_or magnitude)
  rw [significand_add, Nat.min_eq_left (Nat.le_of_lt h)] at hnearest
  exact hnearest

/-! ## Zeros at the end -/

theorem sameValue_div_ten {d : Decimal} (h : d.coefficient % 10 = 0) :
    Decimal.SameValue ⟨d.coefficient / 10, d.exponent + 1⟩ d := by
  obtain ⟨c, e⟩ := d
  have hten : c / 10 * 10 = c := Nat.div_mul_cancel (Nat.dvd_of_mod_eq_zero h)
  have hpow (n : Nat) : c / 10 * 10 ^ (n + 1) = c * 10 ^ n := by
    rw [Nat.pow_succ, Nat.mul_comm (10 ^ n), ← Nat.mul_assoc, hten]
  simp only [Decimal.SameValue, Decimal.fraction, Nat.pow_eq]
  cases e with
  | ofNat n =>
      have hnext : (Int.ofNat n + 1).toNat = n + 1 := rfl
      have hneg : (-(Int.ofNat n + 1)).toNat = 0 := rfl
      have hneg' : (-Int.ofNat n).toNat = 0 := by cases n <;> rfl
      rw [hnext, hneg, hneg', hpow]
      rfl
  | negSucc n =>
      have hnext : Int.negSucc n + 1 = -(n : Int) := by omega
      have hneg : (-Int.negSucc n).toNat = n + 1 := rfl
      have hlow : (Int.negSucc n).toNat = 0 := rfl
      rw [hnext, hneg, hlow, Int.neg_neg, Int.toNat_natCast, Int.toNat_neg_natCast, Nat.pow_zero, Nat.mul_one,
        Nat.mul_one, hpow]

theorem ofDecimal_stripZeros (steps : Nat) (d : Decimal) :
    ofDecimal (d.stripZeros steps) = ofDecimal d := by
  induction steps generalizing d with
  | zero => rfl
  | succ steps ih =>
      rw [Decimal.stripZeros]
      split
      · rename_i h
        rw [ih, ofDecimal_eq_of_sameValue (sameValue_div_ten h)]
      · rfl

theorem sameValue_zero {d : Decimal} (h : d.coefficient = 0) : Decimal.SameValue ⟨0, 0⟩ d := by
  simp [Decimal.SameValue, Decimal.fraction, h]

theorem ofDecimal_normalize (d : Decimal) : ofDecimal d.normalize = ofDecimal d := by
  rw [Decimal.normalize]
  split
  · rename_i h
    exact ofDecimal_eq_of_sameValue (sameValue_zero h)
  · exact ofDecimal_stripZeros _ d

/-! ## Shortest decimals -/

theorem ofDecimal_of_ofSize? {magnitude digits : Nat} {whole d : Decimal}
    (h : ofSize? magnitude whole digits = some d) : ofDecimal d = magnitude := by
  have hreads {d : Decimal} (hd : readsBack magnitude d) : ofDecimal d = magnitude := of_decide_eq_true hd
  unfold ofSize? at h
  by_cases hbelow : readsBack magnitude (whole.truncate digits)
  · rw [if_pos hbelow] at h
    split at h
    · rename_i habove
      cases h
      exact hreads (Bool.and_eq_true_iff.1 habove).1
    · cases h
      exact hreads hbelow
  · rw [if_neg hbelow] at h
    split at h
    · rename_i habove
      cases h
      exact hreads habove
    · cases h

/-- The shortest decimal of a finite magnitude reads back. -/
theorem ofDecimal_shortest {magnitude : Nat} (h : magnitude < infinity) :
    ofDecimal (shortest magnitude) = magnitude := by
  simp only [shortest]
  rw [ofDecimal_normalize]
  cases hfound : (List.range (exact magnitude).size).findSome? fun i =>
      ofSize? magnitude (exact magnitude) (i + 1) with
  | none => exact ofDecimal_exact h
  | some d =>
      obtain ⟨i, -, hi⟩ := List.exists_of_findSome?_eq_some hfound
      exact ofDecimal_of_ofSize? hi

end Binary64

/-! ## Numerals -/

namespace Decimal

theorem natOfDigits_toDigits (n : Nat) : natOfDigits (Nat.toDigits 10 n) = n := Nat.ofDigitChars_ten_toDigits

theorem natOfDigits_append_zeros (digits : List Char) (n : Nat) :
    natOfDigits (digits ++ List.replicate n '0') = natOfDigits digits * 10 ^ n := by
  have happend := Nat.ofDigitChars_append (b := 10) (l := digits) (m := List.replicate n '0') 0
  rw [Nat.ofDigitChars_replicate_zero, Nat.mul_comm] at happend
  exact happend

theorem natOfDigits_zeros_append (digits : List Char) (n : Nat) :
    natOfDigits (List.replicate n '0' ++ digits) = natOfDigits digits := by
  have happend := Nat.ofDigitChars_append (b := 10) (l := List.replicate n '0') (m := digits) 0
  rw [Nat.ofDigitChars_replicate_zero, Nat.mul_zero] at happend
  exact happend

theorem isAsciiDigit_zeros {n : Nat} {c : Char} (h : c ∈ List.replicate n '0') : Text.isAsciiDigit c := by
  rw [List.eq_of_mem_replicate h]
  decide

theorem isAsciiDigit_toDigits {n : Nat} {c : Char} (h : c ∈ Nat.toDigits 10 n) : Text.isAsciiDigit c := by
  have hdigit := Nat.isDigit_of_mem_toDigits (by decide) (by decide) h
  simpa [Char.isDigit, Text.isAsciiDigit, Char.le_def] using hdigit

/-- The digits of a numeral before and after its point, which it has only if there are digits after it. -/
structure Digits (numeral whole part : List Char) : Prop where
  whole_ne_nil : whole ≠ []
  whole_digits : ∀ c ∈ whole, Text.isAsciiDigit c
  part_digits : ∀ c ∈ part, Text.isAsciiDigit c
  numeral_eq : numeral = if part = [] then whole else whole ++ '.' :: part

theorem sameValue_of_part {whole part : List Char} {places : Nat} (hlength : part.length = places) :
    SameValue (ofDigits whole part) ⟨natOfDigits (whole ++ part), -(places : Int)⟩ := by
  rw [ofDigits, hlength]
  exact rfl

/-- The numeral of a decimal is digits with at most one point, and has its value. -/
theorem exists_digits_numeral (d : Decimal) :
    ∃ whole part, Digits d.numeral whole part ∧ SameValue (ofDigits whole part) d := by
  obtain ⟨c, e⟩ := d
  simp only [numeral]
  have hne : Nat.toDigits 10 c ≠ [] := Nat.toDigits_ne_nil
  have hdigits : ∀ d ∈ Nat.toDigits 10 c, Text.isAsciiDigit d := fun _ => isAsciiDigit_toDigits
  have hvalue := natOfDigits_toDigits c
  generalize Nat.toDigits 10 c = digits at hne hdigits hvalue ⊢
  subst hvalue
  by_cases he : 0 ≤ e
  · -- zeros fill the places up to the point
    obtain ⟨n, rfl⟩ := Int.eq_ofNat_of_zero_le he
    rw [if_pos he, Int.toNat_natCast]
    refine ⟨digits ++ List.replicate n '0', [], ⟨by simp [hne], ?_, by simp, rfl⟩, ?_⟩
    · exact List.forall_mem_append.2 ⟨hdigits, fun _ => isAsciiDigit_zeros⟩
    · simp [SameValue, ofDigits, fraction, natOfDigits_append_zeros]
  · obtain ⟨places, rfl⟩ : ∃ places : Nat, e = -(places : Int) := ⟨(-e).toNat, by omega⟩
    rw [if_neg he, Int.neg_neg, Int.toNat_natCast]
    by_cases hlt : places < digits.length
    · -- the point stands between two digits
      have hsplit := List.take_append_drop (digits.length - places) digits
      have hbefore : (digits.take (digits.length - places)).length = digits.length - places := by simp
      have hafter : (digits.drop (digits.length - places)).length = places := by
        rw [List.length_drop]
        omega
      rw [if_pos hlt]
      generalize digits.take (digits.length - places) = before,
        digits.drop (digits.length - places) = after at hsplit hbefore hafter ⊢
      subst hsplit
      obtain ⟨hwhole, hpart⟩ := List.forall_mem_append.1 hdigits
      have hpartne : after ≠ [] := List.ne_nil_of_length_pos (by omega)
      have hwholene : before ≠ [] := List.ne_nil_of_length_pos (by omega)
      exact ⟨before, after, ⟨hwholene, hwhole, hpart, (if_neg hpartne).symm⟩, sameValue_of_part hafter⟩
    · -- zeros fill the places down from the point
      rw [if_neg hlt]
      have hzero : ∀ c ∈ ['0'], Text.isAsciiDigit c := fun _ => isAsciiDigit_zeros (n := 1)
      refine ⟨['0'], List.replicate (places - digits.length) '0' ++ digits, ⟨by simp, hzero, ?_, ?_⟩, ?_⟩
      · exact List.forall_mem_append.2 ⟨fun _ => isAsciiDigit_zeros, hdigits⟩
      · rw [if_neg (by simp [hne])]
        rfl
      · have hzeros := natOfDigits_zeros_append digits (1 + (places - digits.length))
        rw [← List.replicate_append_replicate] at hzeros
        rw [← hzeros, List.append_assoc]
        refine sameValue_of_part ?_
        rw [List.length_append, List.length_replicate]
        omega

end Decimal

end LetScript
