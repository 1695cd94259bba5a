/-
# Theory.Utf8 -- the first byte of a character

A text is a list of characters, each encoded in one to four bytes.  The first byte of a
character tells one byte from more, and none of a character but NUL is zero.
-/
import Mathlib.Data.List.Basic

namespace EinkLiteOS.Theory.Utf8

set_option autoImplicit false

/-- The bytes of a text. -/
def encode (text : List Char) : List UInt8 := text.flatMap String.utf8EncodeChar

@[simp] theorem encode_nil : encode [] = [] := rfl

@[simp] theorem encode_cons (c : Char) (rest : List Char) :
    encode (c :: rest) = String.utf8EncodeChar c ++ encode rest := rfl

/-- No character is shorter than a byte. -/
theorem length_le_encode (text : List Char) : text.length ≤ (encode text).length := by
  induction text with
  | nil => exact Nat.le_refl 0
  | cons c rest ih =>
      have positive := c.utf8Size_pos
      rw [encode_cons, List.length_append, String.length_utf8EncodeChar, List.length_cons]
      omega

/-- The first byte of a character, and how many follow. -/
theorem exists_lead (c : Char) :
    ∃ b rest, String.utf8EncodeChar c = b :: rest ∧ (b ≤ 0x7F ↔ c.utf8Size = 1) ∧
      (c.val ≠ 0 → b ≠ 0) ∧ rest.length + 1 = c.utf8Size := by
  have length := String.length_utf8EncodeChar c
  have one : (0x7F : UInt8).toNat = 127 := rfl
  simp only [UInt8.le_iff_toNat_le, one, ne_eq, ← UInt8.toNat_inj, ← UInt32.toNat_inj]
  -- a character of several bytes starts with a high byte
  have several : ∀ n rest, String.utf8EncodeChar c = UInt8.ofNat n :: rest → 128 ≤ n → n < 256 →
      rest ≠ [] → ∃ b rest, String.utf8EncodeChar c = b :: rest ∧
        (b.toNat ≤ 127 ↔ c.utf8Size = 1) ∧ (¬ c.val.toNat = (0 : UInt32).toNat →
          ¬ b.toNat = (0 : UInt8).toNat) ∧ rest.length + 1 = c.utf8Size := by
    intro n rest bytes high small more
    have value : (UInt8.ofNat n).toNat = n := UInt8.toNat_ofNat_of_lt' small
    have positive := List.length_pos_iff.mpr more
    have null : (0 : UInt8).toNat = 0 := rfl
    rw [bytes, List.length_cons] at length
    refine ⟨_, rest, bytes, ?_, ?_, length⟩
    · rw [value]
      omega
    · intro _
      rw [value]
      omega
  by_cases ascii : c.val.toNat ≤ 0x7F
  · have bytes : String.utf8EncodeChar c = [UInt8.ofNat c.val.toNat] := by
      simp only [String.utf8EncodeChar]
      exact if_pos ascii
    have value : (UInt8.ofNat c.val.toNat).toNat = c.val.toNat :=
      UInt8.toNat_ofNat_of_lt' (Nat.lt_of_le_of_lt ascii (by decide))
    rw [bytes] at length
    refine ⟨_, [], bytes, ?_, ?_, length⟩
    · rw [value]
      exact ⟨fun _ => length.symm, fun _ => ascii⟩
    · intro other
      rw [value]
      exact other
  · have encoded : String.utf8EncodeChar c = _ := if_neg ascii
    by_cases two : c.val.toNat ≤ 0x7FF
    · rw [if_pos two] at encoded
      exact several _ _ encoded (by omega) (by omega) (List.cons_ne_nil _ _)
    · rw [if_neg two] at encoded
      by_cases three : c.val.toNat ≤ 0xFFFF
      · rw [if_pos three] at encoded
        exact several _ _ encoded (by omega) (by omega) (List.cons_ne_nil _ _)
      · rw [if_neg three] at encoded
        exact several _ _ encoded (by omega) (by omega) (List.cons_ne_nil _ _)

end EinkLiteOS.Theory.Utf8
