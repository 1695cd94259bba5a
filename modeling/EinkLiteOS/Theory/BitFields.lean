/-
# Theory.BitFields -- bytes as rows of equal bit fields

A byte is `n` fields of `8 / n` bits each, for `n` one of 8, 4 and 2, the first field in
its high bits.  `field` reads one, `fieldAt` one of a byte string.  Storing one field
leaves every other as it was (`fieldAt_modify`), two byte strings of one length are equal
when their fields are (`ext_fieldAt`), and so stores into different fields commute
(`modify_comm`).
-/
import Mathlib.Algebra.Order.Ring.Nat
import Mathlib.Data.Fintype.Basic
import Mathlib.Data.List.Basic

namespace EinkLiteOS.Theory.BitFields

set_option autoImplicit false

/-- A byte can be cut into this many equal fields. -/
def Cuts (n : Nat) : Prop := n = 8 ∨ n = 4 ∨ n = 2

theorem Cuts.pos {n : Nat} (cuts : Cuts n) : 0 < n := by
  simp only [Cuts] at cuts
  omega

/-- Field `j` of a byte cut into `n`, `0` for the high bits. -/
def field (n : Nat) (b : UInt8) (j : Nat) : UInt8 :=
  b >>> UInt8.ofNat (8 - 8 / n * (j + 1)) &&& UInt8.ofNat (2 ^ (8 / n) - 1)

theorem field_or (n : Nat) (b c : UInt8) (j : Nat) :
    field n (b ||| c) j = field n b j ||| field n c j := by
  simp only [field]
  rw [UInt8.shiftRight_or]
  apply UInt8.toBitVec_inj.mp
  exact BitVec.and_or_distrib_right

theorem field_and (n : Nat) (b c : UInt8) (j : Nat) :
    field n (b &&& c) j = field n b j &&& field n c j := by
  simp only [field]
  generalize UInt8.ofNat (2 ^ (8 / n) - 1) = full
  rw [UInt8.shiftRight_and]
  calc (b >>> _ &&& c >>> _) &&& full
      = (b >>> _ &&& c >>> _) &&& (full &&& full) := by rw [UInt8.and_self]
    _ = b >>> _ &&& full &&& (c >>> _ &&& full) := by ac_rfl

theorem field_and_full (n : Nat) (b : UInt8) (j : Nat) :
    field n b j &&& UInt8.ofNat (2 ^ (8 / n) - 1) = field n b j := by
  simp only [field]
  rw [UInt8.and_assoc, UInt8.and_self]

theorem field_or_full (n : Nat) (b : UInt8) (j : Nat) :
    field n b j ||| UInt8.ofNat (2 ^ (8 / n) - 1) = UInt8.ofNat (2 ^ (8 / n) - 1) := by
  simp only [field]
  generalize UInt8.ofNat (2 ^ (8 / n) - 1) = full
  apply UInt8.toBitVec_inj.mp
  ext i
  simp

/-- The fields put together again. -/
def join (n : Nat) (fields : Nat → UInt8) : UInt8 :=
  (List.range n).foldl (fun b j => b <<< UInt8.ofNat (8 / n) ||| fields j) 0

theorem join_field {n : Nat} (cuts : Cuts n) (b : UInt8) : join n (field n b) = b := by
  have eight : ∀ a : Fin 256, join 8 (field 8 (UInt8.ofFin a)) = UInt8.ofFin a := by
    decide +kernel
  have four : ∀ a : Fin 256, join 4 (field 4 (UInt8.ofFin a)) = UInt8.ofFin a := by
    decide +kernel
  have two : ∀ a : Fin 256, join 2 (field 2 (UInt8.ofFin a)) = UInt8.ofFin a := by
    decide +kernel
  obtain rfl | rfl | rfl := cuts
  · exact eight b.toFin
  · exact four b.toFin
  · exact two b.toFin

theorem ext_fields {n : Nat} (cuts : Cuts n) {b c : UInt8}
    (same : ∀ j < n, field n b j = field n c j) : b = c := by
  rw [← join_field cuts b, ← join_field cuts c]
  simp only [join]
  apply List.foldl_ext
  intro a j member
  rw [same j (List.mem_range.mp member)]

/-! ## Byte strings -/

/-- Field `i` of a byte string. -/
def fieldAt (n : Nat) (bytes : List UInt8) (i : Nat) : Option UInt8 :=
  bytes[i / n]?.map fun b => field n b (i % n)

/-- Field `j` of byte `a`. -/
theorem fieldAt_mul_add {n j : Nat} (bytes : List UInt8) (a : Nat) (small : j < n) :
    fieldAt n bytes (n * a + j) = bytes[a]?.map fun b => field n b j := by
  have positive : 0 < n := Nat.zero_lt_of_lt small
  have quotient : (n * a + j) / n = a := by
    rw [Nat.mul_add_div positive, Nat.div_eq_of_lt small, Nat.add_zero]
  have remainder : (n * a + j) % n = j := by
    rw [Nat.mul_add_mod, Nat.mod_eq_of_lt small]
  rw [fieldAt, quotient, remainder]

theorem ext_fieldAt {n : Nat} (cuts : Cuts n) {xs ys : List UInt8}
    (length : xs.length = ys.length) (same : ∀ i, fieldAt n xs i = fieldAt n ys i) :
    xs = ys := by
  refine List.ext_getElem length ?_
  intro a inXs inYs
  apply ext_fields cuts
  intro j small
  have here := same (n * a + j)
  rw [fieldAt_mul_add xs a small, fieldAt_mul_add ys a small, List.getElem?_eq_getElem inXs,
    List.getElem?_eq_getElem inYs] at here
  exact Option.some.inj here

/-- `store` puts `d` into field `j` of a byte and leaves the others. -/
def Sets (n j : Nat) (d : UInt8) (store : UInt8 → UInt8) : Prop :=
  ∀ b, ∀ k < n, field n (store b) k = if k = j then d else field n b k

/-- **Storing one field of a byte string**: it reads back, and every other field is what
it was. -/
theorem fieldAt_modify {n i : Nat} (cuts : Cuts n) {bytes : List UInt8} {d : UInt8}
    {store : UInt8 → UInt8} (sets : Sets n (i % n) d store) (i' : Nat) :
    fieldAt n (bytes.modify (i / n) store) i' =
      if i' = i then (fieldAt n bytes i).map fun _ => d else fieldAt n bytes i' := by
  have small : ∀ k, k % n < n := fun k => Nat.mod_lt k cuts.pos
  simp only [fieldAt]
  rw [List.getElem?_modify]
  by_cases here : i' = i
  · subst here
    rw [if_pos rfl]
    cases bytes[i' / n]? with
    | none => rfl
    | some b =>
        simp only [Option.map_eq_map, Option.map_some, if_pos, sets b _ (small i')]
  · rw [if_neg here]
    cases bytes[i' / n]? with
    | none => rfl
    | some b =>
        by_cases sameByte : i / n = i' / n
        · have otherField : i' % n ≠ i % n := by
            intro sameField
            apply here
            rw [← Nat.div_add_mod i' n, ← Nat.div_add_mod i n, sameByte, sameField]
          simp only [Option.map_eq_map, Option.map_some, if_pos sameByte, sets b _ (small i'),
            if_neg otherField]
        · simp only [Option.map_eq_map, Option.map_some, if_neg sameByte]

/-- Stores into different fields commute. -/
theorem modify_comm {n i i' : Nat} (cuts : Cuts n) (bytes : List UInt8) {d d' : UInt8}
    {store store' : UInt8 → UInt8} (sets : Sets n (i % n) d store)
    (sets' : Sets n (i' % n) d' store') (other : i ≠ i') :
    (bytes.modify (i / n) store).modify (i' / n) store' =
      (bytes.modify (i' / n) store').modify (i / n) store := by
  apply ext_fieldAt cuts
  · simp only [List.length_modify]
  · intro k
    simp only [fieldAt_modify cuts sets, fieldAt_modify cuts sets']
    by_cases first : k = i
    · subst first
      simp only [if_pos, if_neg other]
    · by_cases second : k = i'
      · subst second
        simp only [if_pos, if_neg first]
      · simp only [if_neg first, if_neg second]

end EinkLiteOS.Theory.BitFields
