/-
# Theory.Quads -- bytes as four two-bit digits

The bit fields of `Theory.BitFields` where a byte is four of them: a digit is a field of two
bits.  A byte string `Spells` the digits it holds, two byte strings are equal when their
digits are (`Spells.eq_iff`), and storing one digit changes that one (`Spells.modify`).
-/
import EinkLiteOS.Theory.BitFields

namespace EinkLiteOS.Theory.Quads

open EinkLiteOS.Theory.BitFields

set_option autoImplicit false

/-- Digit `j` of a byte, `0` for the high bits. -/
def digit (b : UInt8) (j : Nat) : UInt8 := field 4 b j

/-- Digit `i` of a byte string. -/
def digitAt (bytes : List UInt8) (i : Nat) : Option UInt8 := fieldAt 4 bytes i

theorem cuts_four : Cuts 4 := Or.inr (Or.inl rfl)

theorem digit_or (b c : UInt8) (j : Nat) : digit (b ||| c) j = digit b j ||| digit c j :=
  field_or 4 b c j

theorem digit_and (b c : UInt8) (j : Nat) : digit (b &&& c) j = digit b j &&& digit c j :=
  field_and 4 b c j

theorem digit_and_three (b : UInt8) (j : Nat) : digit b j &&& 3 = digit b j :=
  field_and_full 4 b j

theorem digitAt_eq_none {bytes : List UInt8} {i : Nat} (outside : bytes.length ≤ i / 4) :
    digitAt bytes i = none := by
  rw [digitAt, fieldAt, List.getElem?_eq_none outside]
  rfl

/-- The byte string is `n` bytes long and its digits are those of `f`. -/
structure Spells (bytes : List UInt8) (n : Nat) (f : Nat → UInt8) : Prop where
  length : bytes.length = n
  digits : ∀ i < 4 * n, digitAt bytes i = some (f i)

/-- Digit by digit, a byte at a time. -/
theorem spells_iff {bytes : List UInt8} {n : Nat} {f : Nat → UInt8} :
    Spells bytes n f ↔ bytes.length = n ∧
      ∀ (a : Nat) (inside : a < bytes.length), ∀ j < 4, digit bytes[a] j = f (4 * a + j) := by
  constructor
  · rintro ⟨rfl, digits⟩
    refine ⟨rfl, ?_⟩
    intro a inside j small
    have found := digits (4 * a + j) (by omega)
    rw [digitAt, fieldAt_mul_add bytes a small, List.getElem?_eq_getElem inside] at found
    exact Option.some.inj found
  · rintro ⟨rfl, digits⟩
    refine ⟨rfl, ?_⟩
    intro i below
    have inside : i / 4 < bytes.length := by omega
    have digit := digits (i / 4) inside (i % 4) (Nat.mod_lt i (by decide))
    rw [Nat.div_add_mod] at digit
    rw [digitAt, fieldAt, List.getElem?_eq_getElem inside, ← digit]
    rfl

/-- **Two byte strings are equal exactly when they are as long and have the same
digits.** -/
theorem Spells.eq_iff {xs ys : List UInt8} {n m : Nat} {f g : Nat → UInt8}
    (left : Spells xs n f) (right : Spells ys m g) :
    xs = ys ↔ n = m ∧ ∀ i < 4 * n, f i = g i := by
  constructor
  · rintro rfl
    have length : n = m := left.length.symm.trans right.length
    refine ⟨length, ?_⟩
    intro i below
    exact Option.some.inj ((left.digits i below).symm.trans (right.digits i (length ▸ below)))
  · rintro ⟨rfl, same⟩
    refine ext_fieldAt cuts_four (left.length.trans right.length.symm) fun i => ?_
    have leftLength := left.length
    have rightLength := right.length
    by_cases below : i < 4 * n
    · exact (left.digits i below).trans ((congrArg some (same i below)).trans
        (right.digits i below).symm)
    · exact (digitAt_eq_none (by omega)).trans (digitAt_eq_none (by omega)).symm

theorem spells_replicate_zero (n : Nat) : Spells (List.replicate n 0) n fun _ => 0 := by
  refine spells_iff.mpr ⟨List.length_replicate, ?_⟩
  intro a inside j small
  rw [List.getElem_replicate]
  have zero : ∀ j < 4, digit 0 j = 0 := by decide
  exact zero j small

/-- Setting one digit of one byte. -/
theorem Spells.modify {bytes : List UInt8} {n : Nat} {f : Nat → UInt8}
    (spells : Spells bytes n f) {a j : Nat} (small : j < 4) {d : UInt8} {g : UInt8 → UInt8}
    (sets : ∀ b, ∀ k < 4, digit (g b) k = if k = j then d else digit b k) :
    Spells (bytes.modify a g) n fun i => if i = 4 * a + j then d else f i := by
  have place : (4 * a + j) / 4 = a ∧ (4 * a + j) % 4 = j := by omega
  have stored : Sets 4 ((4 * a + j) % 4) d g := place.2.symm ▸ sets
  refine ⟨(List.length_modify _ _ _).trans spells.length, ?_⟩
  intro i below
  have modified : fieldAt 4 (bytes.modify ((4 * a + j) / 4) g) i = _ :=
    fieldAt_modify cuts_four stored i
  rw [place.1] at modified
  have digit := spells.digits i below
  rw [digitAt] at digit ⊢
  rw [modified]
  by_cases here : i = 4 * a + j
  · rw [if_pos here, if_pos here, ← here, digit]
    rfl
  · rw [if_neg here, if_neg here, digit]

end EinkLiteOS.Theory.Quads
