/-
# Theory.Slices -- cutting a list at regular offsets

A packer cuts a list by offset, `l[i * k : i * k + k]`; the pieces in order are
the list again.
-/
import Mathlib.Data.List.Basic

namespace EinkLiteOS.Theory.Slices

set_option autoImplicit false

universe u

variable {α : Type u}

/-- The slice of length `k` at offset `i * k`, shorter where the list ends. -/
def slice (k : Nat) (l : List α) (i : Nat) : List α := (l.drop (i * k)).take k

theorem length_slice (k : Nat) (l : List α) (i : Nat) :
    (slice k l i).length = min k (l.length - i * k) := by
  rw [slice, List.length_take, List.length_drop]

/-- The slices before offset `n * k` are the first `n * k` elements. -/
theorem flatMap_slice_take (k : Nat) (l : List α) (n : Nat) :
    (List.range n).flatMap (slice k l) = l.take (n * k) := by
  induction n with
  | zero => simp
  | succ n ih =>
      rw [List.range_succ, List.flatMap_append, ih, List.flatMap_singleton, slice, Nat.succ_mul,
        List.take_add]

/-- **The slices of a list are the list**, once they reach its end. -/
theorem flatMap_slice (k : Nat) (l : List α) {n : Nat} (reach : l.length ≤ n * k) :
    (List.range n).flatMap (slice k l) = l := by
  rw [flatMap_slice_take, List.take_of_length_le reach]

theorem slice_map {β : Type u} (k : Nat) (f : α → β) (l : List α) (i : Nat) :
    slice k (l.map f) i = (slice k l i).map f := by
  rw [slice, slice, List.map_take, List.map_drop]

/-- A slice that starts in the list is not empty. -/
theorem slice_ne_nil {k : Nat} {l : List α} {i : Nat} (positive : 0 < k)
    (starts : i * k < l.length) : slice k l i ≠ [] := by
  intro empty
  have length := length_slice k l i
  rw [empty, List.length_nil] at length
  omega

end EinkLiteOS.Theory.Slices
