/-
# Theory.Raster -- arrays scanned in place

A two-dimensional array of fixed height and width, and a scan that visits its cells in
reading order, every visit updating the state the next one starts from.  An update names its
cell by two signed indices, which count from the end when they are negative and must lie in
the array.  When a visit settles its own cell and leaves the cells before it as they are, a
whole scan settles every cell (`scan_settles`).
-/
import Mathlib.Data.List.Basic
import Mathlib.Data.Vector.Basic

namespace EinkLiteOS.Theory.Raster

universe u v

set_option autoImplicit false

/-- Rows of equal width. -/
abbrev Grid (α : Type u) (height width : Nat) := Vector (Vector α width) height

/-- Row and column. -/
abbrev Cell (height width : Nat) := Fin height × Fin width

section Cells

variable {α : Type u} {height width : Nat}

def cell (grid : Grid α height width) (p : Cell height width) : α := grid[p.1][p.2]

def put (grid : Grid α height width) (p : Cell height width) (a : α) : Grid α height width :=
  grid.set p.1 (grid[p.1].set p.2 a)

def build (f : Cell height width → α) : Grid α height width :=
  Vector.ofFn fun y => Vector.ofFn fun x => f (y, x)

/-- The rows as lists. -/
def rows (grid : Grid α height width) : List (List α) := grid.toList.map Vector.toList

@[simp] theorem cell_build (f : Cell height width → α) (p : Cell height width) :
    cell (build f) p = f p := by
  simp [cell, build]

@[simp] theorem cell_put_self (grid : Grid α height width) (p : Cell height width) (a : α) :
    cell (put grid p a) p = a := by
  simp [cell, put]

theorem cell_put_of_ne (grid : Grid α height width) {p q : Cell height width} (apart : q ≠ p)
    (a : α) : cell (put grid p a) q = cell grid q := by
  simp only [cell, put]
  by_cases row : p.1 = q.1
  · have column : (p.2 : Nat) ≠ q.2 := fun same => apart (Prod.ext row.symm (Fin.ext same).symm)
    simp [row, column]
  · have row' : (p.1 : Nat) ≠ q.1 := fun same => row (Fin.ext same)
    simp [row']

/-- What the rows hold stands in a cell. -/
theorem exists_cell_of_mem_rows {grid : Grid α height width} {a : α}
    (member : a ∈ (rows grid).flatten) : ∃ p, cell grid p = a := by
  obtain ⟨row, inRows, inRow⟩ := List.mem_flatten.mp member
  obtain ⟨line, inGrid, rfl⟩ := List.mem_map.mp inRows
  obtain ⟨y, high, rfl⟩ := Vector.mem_iff_getElem.mp (Vector.mem_toList_iff.mp inGrid)
  obtain ⟨x, wide, rfl⟩ := Vector.mem_iff_getElem.mp (Vector.mem_toList_iff.mp inRow)
  exact ⟨(⟨y, high⟩, ⟨x, wide⟩), rfl⟩

end Cells

/-! ## Signed indices -/

/-- The place of a signed index in a sequence of `n`. -/
def index? (n : Nat) (i : Int) : Option (Fin n) :=
  if inside : 0 ≤ i ∧ i < n then some ⟨i.toNat, by omega⟩
  else if fromEnd : i < 0 ∧ 0 ≤ i + n then some ⟨(i + n).toNat, by omega⟩
  else none

/-- Two signed indices inside the array, not counted from its end. -/
def Inside (height width : Nat) (t : Int × Int) : Prop :=
  (0 ≤ t.1 ∧ t.1 < height) ∧ 0 ≤ t.2 ∧ t.2 < width

/-- The indices of a cell. -/
def indices {height width : Nat} (p : Cell height width) : Int × Int := (p.1, p.2)

theorem indices_injective {height width : Nat} {p q : Cell height width}
    (same : indices p = indices q) : p = q := by
  obtain ⟨row, column⟩ := Prod.mk.inj same
  exact Prod.ext (Fin.ext (Int.ofNat.inj row)) (Fin.ext (Int.ofNat.inj column))

theorem Inside.exists_cell {height width : Nat} {t : Int × Int} (inside : Inside height width t) :
    ∃ p : Cell height width, indices p = t := by
  obtain ⟨row, column⟩ := inside
  exact ⟨(⟨t.1.toNat, by omega⟩, ⟨t.2.toNat, by omega⟩),
    Prod.ext (Int.toNat_of_nonneg row.1) (Int.toNat_of_nonneg column.1)⟩

theorem inside_indices {height width : Nat} (p : Cell height width) :
    Inside height width (indices p) :=
  ⟨⟨Int.natCast_nonneg _, Int.ofNat_lt.mpr p.1.isLt⟩, Int.natCast_nonneg _,
    Int.ofNat_lt.mpr p.2.isLt⟩

@[simp] theorem index?_val {n : Nat} (k : Fin n) : index? n (k : Nat) = some k := by
  unfold index?
  rw [dif_pos ⟨Int.natCast_nonneg _, Int.ofNat_lt.mpr k.isLt⟩]
  rfl

section Updates

variable {α : Type u} {height width : Nat}

/-- `grid[t] = f(grid[t])`, or `none` when the index is out of range. -/
def updateAt (grid : Grid α height width) (t : Int × Int) (f : α → α) :
    Option (Grid α height width) :=
  match index? height t.1, index? width t.2 with
  | some y, some x => some (put grid (y, x) (f (cell grid (y, x))))
  | _, _ => none

@[simp] theorem updateAt_indices (grid : Grid α height width) (p : Cell height width)
    (f : α → α) : updateAt grid (indices p) f = some (put grid p (f (cell grid p))) := by
  simp [updateAt, indices]

/-- Updates inside the array succeed and leave the other cells as they are. -/
theorem foldlM_updateAt {τ : Type v} {target : τ → Int × Int} {targets : List τ}
    (inside : ∀ t ∈ targets, Inside height width (target t)) (f : τ → α → α)
    (grid : Grid α height width) :
    ∃ grid', targets.foldlM (fun g t => updateAt g (target t) (f t)) grid = some grid' ∧
      ∀ q, (∀ t ∈ targets, target t ≠ indices q) → cell grid' q = cell grid q := by
  induction targets generalizing grid with
  | nil => exact ⟨grid, rfl, fun _ _ => rfl⟩
  | cons t rest ih =>
      obtain ⟨p, place⟩ := (inside t List.mem_cons_self).exists_cell
      obtain ⟨grid', runs, others⟩ := ih (fun s member => inside s (List.mem_cons_of_mem t member))
        (put grid p (f t (cell grid p)))
      refine ⟨grid', ?_, ?_⟩
      · rw [List.foldlM_cons, ← place, updateAt_indices]
        exact runs
      · intro q away
        have apart : q ≠ p := by
          rintro rfl
          exact away t List.mem_cons_self place.symm
        rw [others q fun s member => away s (List.mem_cons_of_mem t member),
          cell_put_of_ne _ apart]

end Updates

/-! ## Scans -/

/-- Reading order: row by row, and from left to right. -/
def Before {height width : Nat} (p q : Cell height width) : Prop :=
  p.1 < q.1 ∨ p.1 = q.1 ∧ p.2 < q.2

theorem Before.trans {height width : Nat} {p q r : Cell height width} (first : Before p q)
    (second : Before q r) : Before p r := by
  simp only [Before] at *
  omega

theorem Before.ne {height width : Nat} {p q : Cell height width} (less : Before p q) : p ≠ q := by
  rintro rfl
  simp only [Before] at less
  omega

/-- The cells in reading order. -/
def readingOrder (height width : Nat) : List (Cell height width) :=
  (List.finRange height).flatMap fun y => (List.finRange width).map fun x => (y, x)

section Scans

variable {σ : Type u} {α : Type v} {height width : Nat}

/-- A loop over the rows, and in it a loop over the columns. -/
def scan (visit : Cell height width → σ → Option σ) (s : σ) : Option σ :=
  (List.finRange height).foldlM
    (fun s y => (List.finRange width).foldlM (fun s x => visit (y, x) s) s) s

theorem mem_readingOrder (p : Cell height width) : p ∈ readingOrder height width :=
  List.mem_flatMap.mpr ⟨p.1, List.mem_finRange p.1,
    List.mem_map.mpr ⟨p.2, List.mem_finRange p.2, rfl⟩⟩

theorem readingOrder_sorted : (readingOrder height width).Pairwise Before := by
  simp only [readingOrder]
  refine List.pairwise_flatMap.mpr ⟨?_, (List.pairwise_lt_finRange height).imp ?_⟩
  · intro y _
    exact List.pairwise_map.mpr ((List.pairwise_lt_finRange width).imp fun less =>
      Or.inr ⟨rfl, less⟩)
  · intro y y' less p inRow q inRow'
    obtain ⟨x, -, rfl⟩ := List.mem_map.mp inRow
    obtain ⟨x', -, rfl⟩ := List.mem_map.mp inRow'
    exact Or.inl less

/-- The two loops are one loop over the cells. -/
theorem scan_eq (visit : Cell height width → σ → Option σ) (s : σ) :
    scan visit s = (readingOrder height width).foldlM (fun s p => visit p s) s := by
  simp only [scan, readingOrder]
  induction List.finRange height generalizing s with
  | nil => rfl
  | cons y rest ih =>
      rw [List.foldlM_cons, List.flatMap_cons, List.foldlM_append, List.foldlM_map]
      exact congrArg _ (funext ih)

/-- In a loop over a sorted list whose every turn settles what it visits and leaves what
comes before as it is, everything visited is settled in the end. -/
theorem foldlM_settles {ι : Type} {visit : ι → σ → Option σ} {read : σ → ι → α}
    {before : ι → ι → Prop} {settled : α → Prop}
    (each : ∀ p s, ∃ s', visit p s = some s' ∧ settled (read s' p) ∧
      ∀ q, before q p → read s' q = read s q)
    {order : List ι} (sorted : order.Pairwise before) (s : σ) :
    ∃ s', order.foldlM (fun s p => visit p s) s = some s' ∧
      (∀ p ∈ order, settled (read s' p)) ∧
      ∀ q, (∀ p ∈ order, before q p) → read s' q = read s q := by
  induction order generalizing s with
  | nil => exact ⟨s, rfl, fun p none => absurd none List.not_mem_nil, fun _ _ => rfl⟩
  | cons p rest ih =>
      obtain ⟨first, later⟩ := List.pairwise_cons.mp sorted
      obtain ⟨s₁, visited, own, kept⟩ := each p s
      obtain ⟨s', runs, all, kept'⟩ := ih later s₁
      refine ⟨s', ?_, ?_, ?_⟩
      · rw [List.foldlM_cons, visited]
        exact runs
      · intro q member
        rcases List.mem_cons.mp member with rfl | inRest
        · -- the head is settled by its own visit, and every later visit keeps it
          rw [kept' q first]
          exact own
        · exact all q inRest
      · intro q earlier
        rw [kept' q fun r member => earlier r (List.mem_cons_of_mem p member),
          kept q (earlier p List.mem_cons_self)]

/-- **A scan whose visits settle their own cell and keep the earlier ones settles every
cell.** -/
theorem scan_settles {visit : Cell height width → σ → Option σ}
    (read : σ → Cell height width → α) (settled : α → Prop)
    (each : ∀ p s, ∃ s', visit p s = some s' ∧ settled (read s' p) ∧
      ∀ q, Before q p → read s' q = read s q) (s : σ) :
    ∃ s', scan visit s = some s' ∧ ∀ p, settled (read s' p) := by
  obtain ⟨s', runs, all, -⟩ := foldlM_settles each readingOrder_sorted s
  exact ⟨s', (scan_eq visit s).trans runs, fun p => all p (mem_readingOrder p)⟩

end Scans

end EinkLiteOS.Theory.Raster
