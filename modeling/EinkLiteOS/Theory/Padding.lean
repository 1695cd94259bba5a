/-
# Theory.Padding -- a grid of cells in groups of four, two ways

`flat` lists the cells of a grid row by row, `w` cells to a row.  Written with every
row padded to groups of four, place `i` holds `padded w flat i`.  Written as one run
of `n` cells, with a short last group at the right of its place, it holds
`packed n flat i`.

The two agree when rows need no padding.  When they do need it, they agree only on
small grids that are zero from some cell on (`agree_iff`): one row whose
last, short group is zero, or two or three rows that are padded by one cell and zero
from the second row on.
-/
import Mathlib.Algebra.Group.Defs
import Mathlib.Logic.Basic

namespace EinkLiteOS.Theory.Padding

set_option autoImplicit false

universe u

variable {α : Type u} [Zero α]

/-- The cells of a grid in reading order. -/
theorem flatMap_grid {β : Type u} (w h : Nat) (cell : Nat → Nat → β) :
    ((List.range h).flatMap fun y => (List.range w).map fun x => cell x y) =
      (List.range (w * h)).map fun i => cell (i % w) (i / w) := by
  induction h with
  | zero => rfl
  | succ h ih =>
      rw [List.range_succ, List.flatMap_append, ih, List.flatMap_singleton, Nat.mul_succ,
        List.range_add, List.map_append, List.map_map]
      refine congrArg (_ ++ ·) (List.map_congr_left ?_)
      intro x member
      have inRow : x < w := List.mem_range.mp member
      rw [Function.comp_apply, Nat.mul_add_mod, Nat.mod_eq_of_lt inRow,
        Nat.mul_add_div (Nat.zero_lt_of_lt inRow), Nat.div_eq_of_lt inRow, Nat.add_zero]

/-- Rows padded to groups of four. -/
def padded (w : Nat) (flat : Nat → α) (i : Nat) : α :=
  let row := 4 * ((w + 3) / 4)
  if i % row < w then flat (w * (i / row) + i % row) else 0

/-- One run of `n` cells in groups of four, a short last group at the right. -/
def packed (n : Nat) (flat : Nat → α) (i : Nat) : α :=
  let short := 4 - min 4 (n - 4 * (i / 4))
  if i % 4 < short then 0 else flat (i - short)

theorem padded_at {w row : Nat} (rowEq : row = 4 * ((w + 3) / 4)) (flat : Nat → α) {y x i : Nat}
    (place : i = row * y + x) (inRow : x < row) :
    padded w flat i = if x < w then flat (w * y + x) else 0 := by
  have quotient : i / row = y := by
    rw [place, Nat.mul_add_div (Nat.zero_lt_of_lt inRow), Nat.div_eq_of_lt inRow, Nat.add_zero]
  have remainder : i % row = x := by
    rw [place, Nat.mul_add_mod, Nat.mod_eq_of_lt inRow]
  simp only [padded, ← rowEq, quotient, remainder]

/-- The full groups. -/
theorem packed_full {n i : Nat} (flat : Nat → α) (full : i < 4 * (n / 4)) :
    packed n flat i = flat i := by
  have group : min 4 (n - 4 * (i / 4)) = 4 := by omega
  simp only [packed, group, Nat.sub_self, Nat.not_lt_zero, if_false, Nat.sub_zero]

/-- The short group. -/
theorem packed_short {n i : Nat} (flat : Nat → α) (low : 4 * (n / 4) ≤ i)
    (high : i < 4 * (n / 4) + 4) :
    packed n flat i = if i % 4 < 4 - n % 4 then 0 else flat (i - (4 - n % 4)) := by
  have group : min 4 (n - 4 * (i / 4)) = n % 4 := by omega
  simp only [packed, group]

/-- The cells from `k` on are zero. -/
def ZeroFrom (flat : Nat → α) (k n : Nat) : Prop := ∀ f, k ≤ f → f < n → flat f = 0

/-- The two layouts of a grid of `h` rows agree: as long, and the same in every place. -/
def Agree (w h : Nat) (flat : Nat → α) : Prop :=
  (w + 3) / 4 * h = (w * h + 3) / 4 ∧
    ∀ i < 4 * ((w + 3) / 4 * h), padded w flat i = packed (w * h) flat i

/-- Rows of whole groups need no padding. -/
theorem agree_of_whole {w : Nat} (h : Nat) (flat : Nat → α) (whole : w % 4 = 0) :
    Agree w h flat := by
  obtain ⟨q, rfl⟩ : ∃ q, w = 4 * q := ⟨w / 4, by omega⟩
  have row : (4 * q + 3) / 4 = q := by omega
  have length : 4 * q * h = 4 * (q * h) := Nat.mul_assoc 4 q h
  refine ⟨by rw [row, length]; omega, ?_⟩
  intro i below
  rw [row] at below
  have full : i < 4 * (4 * q * h / 4) := by omega
  have positive : 0 < 4 * q := by
    rcases Nat.eq_zero_or_pos q with rfl | positive
    · simp at below
    · omega
  rw [packed_full flat full, padded_at (by rw [row]) flat (Nat.div_add_mod i (4 * q)).symm
    (Nat.mod_lt i positive), if_pos (Nat.mod_lt i positive), Nat.div_add_mod]

/-- Padded rows make the image longer, unless there is hardly any padding. -/
theorem length_eq_iff {w h : Nat} (ragged : w % 4 ≠ 0) :
    (w + 3) / 4 * h = (w * h + 3) / 4 ↔ (4 - w % 4) * h < 4 := by
  obtain ⟨q, r, rfl, short⟩ : ∃ q r, w = 4 * q + r ∧ r < 4 := ⟨w / 4, w % 4, by omega, by omega⟩
  have row : (4 * q + r + 3) / 4 = q + 1 := by omega
  have rest : (4 * q + r) % 4 = r := by omega
  have cells : (4 * q + r) * h = 4 * (q * h) + r * h := by rw [Nat.add_mul, Nat.mul_assoc]
  have padding : (4 - r) * h + r * h = 4 * h := by
    rw [← Nat.add_mul, Nat.sub_add_cancel (Nat.le_of_lt short)]
  rw [row, rest, cells, Nat.add_mul, Nat.one_mul]
  omega

/-- One row. -/
theorem agree_one_row {w : Nat} (flat : Nat → α) :
    (∀ i < 4 * ((w + 3) / 4), padded w flat i = packed w flat i) ↔
      ZeroFrom flat (w - w % 4) w := by
  have padded : ∀ i < 4 * ((w + 3) / 4), padded w flat i = if i < w then flat i else 0 := by
    intro i below
    rw [padded_at rfl flat (y := 0) (x := i) (by omega) below, Nat.mul_zero, Nat.zero_add]
  constructor
  · intro same f
    induction f using Nat.strongRecOn with
    | ind f ih =>
        intro low high
        have here := same f (by omega)
        rw [padded f (by omega), if_pos high, packed_short flat (by omega) (by omega)] at here
        rw [here]
        split
        · rfl
        · exact ih _ (by omega) (by omega) (by omega)
  · intro zero i below
    rw [padded i below]
    by_cases full : i < w - w % 4
    · rw [if_pos (by omega), packed_full flat (by omega)]
    · have left : (if i < w then flat i else 0) = 0 := by
        split
        · exact zero i (by omega) (by assumption)
        · rfl
      rw [left, packed_short flat (by omega) (by omega)]
      split
      · rfl
      · exact (zero _ (by omega) (by omega)).symm

/-- Rows with one cell of padding each: the last place of a row is zero, and every row
moves its cells one place further. -/
theorem padded_by_one {w : Nat} (ragged : w % 4 = 3) (flat : Nat → α) {y i : Nat}
    (low : (w + 1) * y ≤ i) (high : i ≤ (w + 1) * y + w) :
    padded w flat i = if i < (w + 1) * y + w then flat (i - y) else 0 := by
  have before : (w + 1) * y = w * y + y := Nat.succ_mul w y
  have row : w + 1 = 4 * ((w + 3) / 4) := by omega
  rw [padded_at row flat (y := y) (x := i - (w + 1) * y) (by omega) (by omega)]
  exact if_congr (by omega) (congrArg flat (by omega)) rfl

/-- Several rows with one cell of padding each, and zero from the second row on. -/
theorem padded_eq_packed_of_zero {w h : Nat} (flat : Nat → α) (ragged : w % 4 = 3)
    (several : 1 < h) (length : (w + 3) / 4 * h = (w * h + 3) / 4)
    (zero : ZeroFrom flat w (w * h)) :
    ∀ i < 4 * ((w + 3) / 4 * h), padded w flat i = packed (w * h) flat i := by
  intro i below
  have two : w * 2 ≤ w * h := Nat.mul_le_mul_left w several
  by_cases inFirst : i < w
  · rw [padded_by_one ragged flat (y := 0) (by omega) (by omega), if_pos (by omega), Nat.sub_zero,
      packed_full flat (by omega)]
  · have left : padded w flat i = 0 := by
      have row : 4 * ((w + 3) / 4) = w + 1 := by omega
      have place : i < (w + 1) * h := by rwa [← Nat.mul_assoc, row] at below
      have inGrid : i / (w + 1) < h := Nat.div_lt_of_lt_mul place
      have upto : w * (i / (w + 1) + 1) ≤ w * h := Nat.mul_le_mul_left w inGrid
      rw [Nat.mul_succ] at upto
      rw [padded_at row.symm flat (Nat.div_add_mod i (w + 1)).symm (Nat.mod_lt i (by omega))]
      split
      next inRow =>
        refine zero _ ?_ (by omega)
        -- place `i` is past the first row
        have later : 1 ≤ i / (w + 1) := by
          refine (Nat.one_le_div_iff (by omega)).mpr (Nat.le_of_not_lt ?_)
          intro early
          rw [Nat.mod_eq_of_lt early] at inRow
          exact inFirst inRow
        exact Nat.le_trans (Nat.le_mul_of_pos_right w later) (Nat.le_add_right _ _)
      next => rfl
    rw [left]
    by_cases full : i < 4 * (w * h / 4)
    · rw [packed_full flat full]
      exact (zero i (by omega) (by omega)).symm
    · rw [packed_short flat (by omega) (by omega)]
      split
      · rfl
      · exact (zero _ (by omega) (by omega)).symm

/-- Two rows with one cell of padding each. -/
theorem zero_of_two_rows {w : Nat} (flat : Nat → α) (ragged : w % 4 = 3)
    (same : ∀ i < 4 * ((w + 3) / 4 * 2), padded w flat i = packed (w * 2) flat i) :
    ZeroFrom flat w (w * 2) := by
  -- the last place of the second row is padding, and the cells of the last group follow
  have lastCell : flat (2 * w - 1) = 0 := by
    have here := same (2 * w + 1) (by omega)
    rw [padded_by_one ragged flat (y := 1) (by omega) (by omega), if_neg (by omega),
      packed_short flat (by omega) (by omega), if_neg (by omega)] at here
    rw [here]
    exact congrArg flat (by omega)
  have nextCell : flat (2 * w - 2) = 0 := by
    have here := same (2 * w) (by omega)
    rw [padded_by_one ragged flat (y := 1) (by omega) (by omega), if_pos (by omega), lastCell,
      packed_short flat (by omega) (by omega), if_neg (by omega)] at here
    rw [here]
    exact congrArg flat (by omega)
  intro f
  induction f using Nat.strongRecOn with
  | ind f ih =>
      intro low high
      by_cases last : 2 * w - 2 ≤ f
      · rcases (show f = 2 * w - 2 ∨ f = 2 * w - 1 by omega) with rfl | rfl
        · exact nextCell
        · exact lastCell
      · have here := same f (by omega)
        rw [packed_full flat (by omega)] at here
        rw [← here]
        by_cases start : f = w
        · rw [padded_by_one ragged flat (y := 0) (by omega) (by omega), if_neg (by omega)]
        · rw [padded_by_one ragged flat (y := 1) (by omega) (by omega), if_pos (by omega)]
          exact ih (f - 1) (by omega) (by omega) (by omega)

/-- Three rows with one cell of padding each. -/
theorem zero_of_three_rows {w : Nat} (flat : Nat → α) (ragged : w % 4 = 3)
    (same : ∀ i < 4 * ((w + 3) / 4 * 3), padded w flat i = packed (w * 3) flat i) :
    ZeroFrom flat w (w * 3) := by
  intro f
  induction f using Nat.strongRecOn with
  | ind f ih =>
      intro low high
      by_cases last : f = 3 * w - 1
      · -- the last cell stands where the third row is padding
        have here := same (3 * w + 2) (by omega)
        rw [padded_by_one ragged flat (y := 2) (by omega) (by omega), if_neg (by omega),
          packed_short flat (by omega) (by omega), if_neg (by omega)] at here
        rw [here]
        exact congrArg flat (by omega)
      · have here := same f (by omega)
        rw [packed_full flat (by omega)] at here
        rw [← here]
        by_cases inSecond : f < 2 * w + 2
        · by_cases start : f = w
          · rw [padded_by_one ragged flat (y := 0) (by omega) (by omega), if_neg (by omega)]
          · rw [padded_by_one ragged flat (y := 1) (by omega) (by omega)]
            split
            · exact ih (f - 1) (by omega) (by omega) (by omega)
            · rfl
        · rw [padded_by_one ragged flat (y := 2) (by omega) (by omega), if_pos (by omega)]
          exact ih (f - 2) (by omega) (by omega) (by omega)

/-- **When the two layouts agree.** -/
theorem agree_iff {w h : Nat} (rows : 0 < h) (flat : Nat → α) :
    Agree w h flat ↔
      w % 4 = 0 ∨ h = 1 ∧ ZeroFrom flat (w - w % 4) w ∨
        w % 4 = 3 ∧ 1 < h ∧ h ≤ 3 ∧ ZeroFrom flat w (w * h) := by
  by_cases whole : w % 4 = 0
  · exact ⟨fun _ => Or.inl whole, fun _ => agree_of_whole h flat whole⟩
  rw [Agree, length_eq_iff whole]
  have padding : (4 - w % 4) * h < 4 ↔ h = 1 ∨ w % 4 = 3 ∧ 1 < h ∧ h ≤ 3 := by
    rcases (show w % 4 = 1 ∨ w % 4 = 2 ∨ w % 4 = 3 by omega) with r | r | r <;>
      rw [r] <;> omega
  rw [padding]
  by_cases one : h = 1
  · subst one
    simp only [Nat.mul_one, whole, true_and, false_or, Nat.lt_irrefl, false_and, and_false,
      or_false]
    exact agree_one_row flat
  · constructor
    · rintro ⟨small, same⟩
      rcases small with rfl | ⟨three, more, few⟩
      · exact absurd rfl one
      · refine Or.inr (Or.inr ⟨three, more, few, ?_⟩)
        rcases (show h = 2 ∨ h = 3 by omega) with rfl | rfl
        · exact zero_of_two_rows flat three same
        · exact zero_of_three_rows flat three same
    · rintro (none | ⟨single, -⟩ | ⟨three, more, few, zero⟩)
      · exact absurd none whole
      · exact absurd single one
      · have size : h = 1 ∨ w % 4 = 3 ∧ 1 < h ∧ h ≤ 3 := Or.inr ⟨three, more, few⟩
        exact ⟨size, padded_eq_packed_of_zero flat three more
          ((length_eq_iff whole).mpr (padding.mpr size)) zero⟩

end EinkLiteOS.Theory.Padding
