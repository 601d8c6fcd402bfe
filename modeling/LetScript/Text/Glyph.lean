import LetScript.Text.Basic

/-!
# Glyphs

A byte string read from left to right as UTF-8: each glyph is a character or, where no character's
encoding starts, a single stray byte. The reading loses nothing (`bytes_decode`).
-/

namespace LetScript

/-- One step of reading a byte string as UTF-8. -/
inductive Glyph where
  /-- A character, encoded in full. -/
  | char (c : Char)
  /-- A byte at which no encoding of a character starts. -/
  | stray (byte : UInt8)
  deriving DecidableEq, Repr

namespace Glyph

/-- The bytes that a glyph stands for. -/
def bytes : Glyph → Text
  | .char c => Text.ofChar c
  | .stray b => [b]

/-- The character that a reader sees: a stray byte shows as the replacement character. -/
def shown : Glyph → Char
  | .char c => c
  | .stray _ => '\uFFFD'

/-- The six payload bits of the byte at an index. -/
def follower (rest : Text) (i : Nat) : Nat := (rest.getD i 0).toNat % 64

/-- The only character whose encoding can start with `lead` and go on as `rest` does. -/
def candidate (lead : UInt8) (rest : Text) : Char :=
  let n := lead.toNat
  if n < 0x80 then Char.ofNat n
  else if n < 0xE0 then Char.ofNat (n % 32 * 64 + follower rest 0)
  else if n < 0xF0 then Char.ofNat (n % 16 * 4096 + follower rest 0 * 64 + follower rest 1)
  else Char.ofNat (n % 8 * 262144 + follower rest 0 * 4096 + follower rest 1 * 64 + follower rest 2)

/-- The character whose encoding starts the text `lead :: rest`, if there is one. -/
def leading? (lead : UInt8) (rest : Text) : Option Char :=
  let c := candidate lead rest
  if (Text.ofChar c).isPrefixOf (lead :: rest) then some c else none

/-- Reads a text whose first `skip` bytes belong to a character that has been read already. -/
def decodeAfter : Nat → Text → List Glyph
  | _, [] => []
  | skip + 1, _ :: rest => decodeAfter skip rest
  | 0, b :: rest =>
    match leading? b rest with
    | some c => .char c :: decodeAfter ((Text.ofChar c).length - 1) rest
    | none => .stray b :: decodeAfter 0 rest

/-- The glyphs of a text. -/
def decode (t : Text) : List Glyph := decodeAfter 0 t

/-- Skipping bytes is dropping them. -/
theorem decodeAfter_eq_drop (skip : Nat) (t : Text) :
    decodeAfter skip t = decode (t.drop skip) := by
  induction t generalizing skip with
  | nil => cases skip <;> rfl
  | cons b t ih =>
      cases skip with
      | zero => rfl
      | succ n => simp [decodeAfter, ih]

theorem decode_nil : decode [] = [] := rfl

theorem decode_cons_char {b : UInt8} {rest : Text} {c : Char} (h : leading? b rest = some c) :
    decode (b :: rest) = .char c :: decode (rest.drop ((Text.ofChar c).length - 1)) := by
  simp only [decode, decodeAfter, h]
  rw [decodeAfter_eq_drop, decode]

theorem decode_cons_stray {b : UInt8} {rest : Text} (h : leading? b rest = none) :
    decode (b :: rest) = .stray b :: decode rest := by
  simp [decode, decodeAfter, h]

/-- A character that starts a text is followed by the rest of the text. -/
theorem ofChar_append_of_leading? {b : UInt8} {rest : Text} {c : Char}
    (h : leading? b rest = some c) :
    Text.ofChar c ++ rest.drop ((Text.ofChar c).length - 1) = b :: rest := by
  simp only [leading?] at h
  split at h
  · rename_i hp
    simp only [Option.some.injEq] at h
    subst h
    generalize candidate b rest = c at hp
    obtain ⟨tail, ht⟩ := List.isPrefixOf_iff_prefix.1 hp
    cases hc : Text.ofChar c with
    | nil =>
        have := String.length_utf8EncodeChar c
        have := c.utf8Size_pos
        simp [Text.ofChar] at hc
    | cons x xs =>
        rw [hc] at ht
        simp only [List.cons_append, List.cons.injEq] at ht
        simp [← ht.1, ← ht.2]
  · simp at h

/-- Reading a text as glyphs loses nothing. -/
theorem bytes_decode (t : Text) : (decode t).flatMap bytes = t := by
  match t with
  | [] => rfl
  | b :: rest =>
      cases h : leading? b rest with
      | none => simp [decode_cons_stray h, bytes, bytes_decode rest]
      | some c =>
          have hb := bytes_decode (rest.drop ((Text.ofChar c).length - 1))
          simp only [decode_cons_char h, List.flatMap_cons, bytes, hb]
          exact ofChar_append_of_leading? h
termination_by t.length

end Glyph

end LetScript
