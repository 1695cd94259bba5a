/-
# Theory.LineWalk -- an error-accumulating walk from corner to corner

A walk on the grid from `(0, 0)` towards `(D, E)`.  The error of a point is
`D (1 + j) - E (1 + i)`; a step moves right when twice the error is at least `-E`, which
takes `E` from it, and then up when twice the error it has now is at most `D`.  The walk
breaks when a move would leave the box.

It breaks at `(D, E)`, or one point to the left of it: there the second test sees the error
of the corner before the corner has been a head of the loop.  That happens to the walks
that rise less than they run, but at least half as much (`corner_mem_iff`).
-/
import EinkLiteOS.Theory.Loop
import Mathlib.Tactic.Linarith
import Mathlib.Tactic.Ring

namespace EinkLiteOS.Theory.LineWalk

open EinkLiteOS.Theory.Loop

set_option autoImplicit false

/-- The error of a point. -/
def err (D E : Nat) (p : Nat × Nat) : Int := D * (1 + p.2) - E * (1 + p.1)

/-- The move to the right, made or not. -/
def right (D E : Nat) (p : Nat × Nat) : Option (Nat × Nat) :=
  if 2 * err D E p ≥ -E then if p.1 = D then none else some (p.1 + 1, p.2) else some p

/-- The move up. -/
def up (D E : Nat) (p : Nat × Nat) : Option (Nat × Nat) :=
  if 2 * err D E p ≤ D then if p.2 = E then none else some (p.1, p.2 + 1) else some p

/-- A turn of the loop. -/
def walkStep (D E : Nat) (p : Nat × Nat) : Option (Nat × Nat) := (right D E p).bind (up D E)

variable {D E : Nat} {p q : Nat × Nat}

theorem err_right (i j : Nat) : err D E (i + 1, j) = err D E (i, j) - E := by
  unfold err
  push_cast
  ring

theorem err_up (i j : Nat) : err D E (i, j + 1) = err D E (i, j) + D := by
  unfold err
  push_cast
  ring

/-- **What a turn can do**: move right, up, or both, each under its own test. -/
theorem walkStep_cases (next : walkStep D E p = some q) :
    (q = (p.1 + 1, p.2) ∧ p.1 ≠ D ∧ -(E : Int) ≤ 2 * err D E p ∧
        (D : Int) < 2 * (err D E p - E)) ∨
      (q = (p.1, p.2 + 1) ∧ p.2 ≠ E ∧ 2 * err D E p < -(E : Int) ∧ 2 * err D E p ≤ (D : Int)) ∨
      (q = (p.1 + 1, p.2 + 1) ∧ p.1 ≠ D ∧ p.2 ≠ E ∧ -(E : Int) ≤ 2 * err D E p ∧
        2 * (err D E p - E) ≤ (D : Int)) := by
  obtain ⟨i, j⟩ := p
  unfold walkStep right up at next
  grind [err_right]

/-- Where a turn can break. -/
theorem walkStep_break (breaks : walkStep D E p = none) :
    (p.1 = D ∧ -(E : Int) ≤ 2 * err D E p) ∨
      (p.2 = E ∧ 2 * err D E p < -(E : Int) ∧ 2 * err D E p ≤ (D : Int)) ∨
      (p.1 ≠ D ∧ p.2 = E ∧ -(E : Int) ≤ 2 * err D E p ∧ 2 * (err D E p - E) ≤ (D : Int)) := by
  obtain ⟨i, j⟩ := p
  unfold walkStep right up at breaks
  grind [err_right]

/-- The box of the walk. -/
def InBox (D E : Nat) (p : Nat × Nat) : Prop := p.1 ≤ D ∧ p.2 ≤ E

theorem walkStep_inBox (inside : InBox D E p) (next : walkStep D E p = some q) : InBox D E q := by
  obtain ⟨row, column⟩ := inside
  unfold InBox
  obtain ⟨rfl, h, -, -⟩ | ⟨rfl, h, -, -⟩ | ⟨rfl, h, h', -, -⟩ := walkStep_cases next <;>
    simp only <;> omega

/-- Every turn comes nearer to the corner. -/
theorem walkStep_falls (inside : InBox D E p) (next : walkStep D E p = some q) :
    (D - q.1) + (E - q.2) < (D - p.1) + (E - p.2) := by
  obtain ⟨row, column⟩ := inside
  obtain ⟨rfl, h, -, -⟩ | ⟨rfl, h, -, -⟩ | ⟨rfl, h, h', -, -⟩ := walkStep_cases next <;>
    simp only <;> omega

/-- A turn moves by at most one in each coordinate, never back, and not nowhere. -/
def Neighbour (p q : Nat × Nat) : Prop :=
  (p.1 ≤ q.1 ∧ q.1 ≤ p.1 + 1) ∧ (p.2 ≤ q.2 ∧ q.2 ≤ p.2 + 1) ∧ p ≠ q

theorem walkStep_neighbour (next : walkStep D E p = some q) : Neighbour p q := by
  unfold Neighbour
  obtain ⟨rfl, -, -, -⟩ | ⟨rfl, -, -, -⟩ | ⟨rfl, -, -, -, -⟩ := walkStep_cases next <;>
    simp [Prod.ext_iff]

/-- The error in the last column. -/
theorem err_lastColumn (j : Nat) : err D E (D, j) = D * (1 + j - E) - E := by
  unfold err
  ring

/-- The error in the last row. -/
theorem err_lastRow (i : Nat) : err D E (i, E) = D + E * (D - 1 - i) := by
  unfold err
  ring

/-- **The walk breaks at the corner or just left of it.** -/
theorem break_place (inside : InBox D E p) (breaks : walkStep D E p = none) :
    p = (D, E) ∨ (p.1 + 1 = D ∧ p.2 = E ∧ D ≤ 2 * E) := by
  obtain ⟨i, j⟩ := p
  obtain ⟨row, column⟩ := inside
  simp only at row column
  obtain ⟨rfl, fast⟩ | ⟨rfl, slow, -⟩ | ⟨notEnd, rfl, -, low⟩ := walkStep_break breaks
  · left
    -- below the corner the error is too small for a move to the right
    by_contra other
    have below : (1 : Int) + j - E ≤ 0 := by grind
    have product := mul_nonpos_of_nonneg_of_nonpos (Int.natCast_nonneg i) below
    simp only [err_lastColumn] at fast
    grind
  · left
    -- left of the corner it is too large for none
    by_contra other
    have before : (0 : Int) ≤ D - 1 - i := by grind
    have product := mul_nonneg (Int.natCast_nonneg j) before
    simp only [err_lastRow] at slow
    omega
  · right
    simp only [err_lastRow] at low notEnd ⊢
    by_cases last : i + 1 = D
    · have none : (D : Int) - 1 - i = 0 := by omega
      rw [none, mul_zero] at low
      exact ⟨last, trivial, by omega⟩
    · have before : (1 : Int) ≤ D - 1 - i := by omega
      have product := mul_le_mul_of_nonneg_left before (Int.natCast_nonneg j)
      omega

/-! ## Steep walks -/

/-- A walk that rises at least as much as it runs moves up in every turn. -/
def LowError (D E : Nat) (p : Nat × Nat) : Prop := 2 * err D E p ≤ D

theorem lowError_start (steep : D ≤ E) : LowError D E (0, 0) := by
  unfold LowError err
  push_cast
  omega

theorem lowError_step (steep : D ≤ E) (low : LowError D E p) (next : walkStep D E p = some q) :
    LowError D E q := by
  unfold LowError at *
  obtain ⟨i, j⟩ := p
  obtain ⟨rfl, -, -, high⟩ | ⟨rfl, -, slow, -⟩ | ⟨rfl, -, -, -, -⟩ := walkStep_cases next
  · omega
  · simp only [err_up] at *
    omega
  · simp only [err_up, err_right] at *
    omega

/-! ## Flat walks -/

/-- A walk that rises less than it runs is still on the diagonal, or above the line. -/
def Flat (D E : Nat) (p : Nat × Nat) : Prop :=
  -(E : Int) ≤ 2 * err D E p ∧ (p.1 = p.2 ∨ (D : Int) < 2 * err D E p)

theorem flat_start (flat : E < D) : Flat D E (0, 0) := by
  refine ⟨?_, Or.inl rfl⟩
  unfold err
  push_cast
  omega

theorem flat_step (flat : E < D) (level : Flat D E p) (next : walkStep D E p = some q) :
    Flat D E q := by
  unfold Flat at *
  obtain ⟨i, j⟩ := p
  obtain ⟨rfl, -, -, high⟩ | ⟨rfl, -, slow, -⟩ | ⟨rfl, -, -, -, -⟩ := walkStep_cases next
  · simp only [err_right] at *
    omega
  · omega
  · simp only [err_up, err_right] at *
    omega

/-- A flat walk is at the top when it comes to the last column but one. -/
theorem flat_lastColumn (flat : E < D) {i j : Nat} (column : j ≤ E) (level : Flat D E (i, j))
    (last : i + 1 = D) : j = E := by
  obtain ⟨-, diagonal | above⟩ := level
  · simp only at diagonal
    omega
  · subst last
    by_contra other
    have below : (1 : Int) + j - E ≤ 0 := by omega
    have product := mul_nonpos_of_nonneg_of_nonpos (Int.natCast_nonneg (i + 1)) below
    have value : err (i + 1) E (i, j) = ((i + 1 : Nat) : Int) * (1 + j - E) := by
      unfold err
      push_cast
      ring
    omega

/-! ## The corner -/

/-- **The walk ends**, in its box, each point a neighbour of the one before it. -/
theorem walk_ends (D E : Nat) :
    ∃ points, heads (walkStep D E) (D + E + 1) (0, 0) = some points :=
  heads_of_measure (I := InBox D E) (fun _ _ => walkStep_inBox) (fun p => (D - p.1) + (E - p.2))
    (fun _ _ => walkStep_falls) ⟨Nat.zero_le D, Nat.zero_le E⟩

/-- The walk stays in its box. -/
theorem walk_inBox {fuel : Nat} {points : List (Nat × Nat)}
    (ends : heads (walkStep D E) fuel (0, 0) = some points) : ∀ p ∈ points, InBox D E p :=
  heads_invariant (I := InBox D E) (fun _ _ => walkStep_inBox) ends
    ⟨Nat.zero_le D, Nat.zero_le E⟩

/-- The walk passes no point twice. -/
theorem walk_nodup {fuel : Nat} {points : List (Nat × Nat)}
    (ends : heads (walkStep D E) fuel (0, 0) = some points) : points.Nodup := by
  have rising : points.IsChain (· < ·) := by
    refine (heads_chain ends).imp fun p q next => ?_
    obtain ⟨⟨row, -⟩, ⟨column, -⟩, other⟩ := walkStep_neighbour next
    exact lt_of_le_of_ne ⟨row, column⟩ other
  exact rising.pairwise.imp fun less => ne_of_lt less

/-- **The corner is reached** by the walks that rise at least as much as they run, or less
than half as much. -/
theorem corner_mem_iff {fuel : Nat} {points : List (Nat × Nat)}
    (ends : heads (walkStep D E) fuel (0, 0) = some points) :
    (D, E) ∈ points ↔ D ≤ E ∨ 2 * E < D := by
  have inBox := walk_inBox ends
  obtain ⟨last, member, breaks⟩ := exists_break ends
  have place := break_place (inBox last member) breaks
  constructor
  · intro corner
    by_contra between
    have flat : E < D := by omega
    -- the point before the corner would be the one the walk breaks at
    have later : (D, E) ≠ (0, 0) := by
      intro same
      have := (Prod.mk.inj same).1
      omega
    obtain ⟨⟨i, j⟩, -, ⟨⟨row, column⟩, level⟩, next⟩ :=
      exists_before (I := fun p => InBox D E p ∧ Flat D E p)
        (fun _ _ both next => ⟨walkStep_inBox both.1 next, flat_step flat both.2 next⟩) ends
        ⟨⟨Nat.zero_le D, Nat.zero_le E⟩, flat_start flat⟩ corner later
    have fast := level.1
    obtain ⟨same, -, -, high⟩ | ⟨-, -, slow, -⟩ | ⟨same, -, -, -, -⟩ := walkStep_cases next
    · obtain ⟨rfl, rfl⟩ := Prod.mk.inj same
      simp only [err_lastRow] at high
      push_cast at high
      ring_nf at high
      omega
    · omega
    · obtain ⟨rfl, rfl⟩ := Prod.mk.inj same
      have := flat_lastColumn flat column level rfl
      simp only at this
      omega
  · intro apart
    obtain rfl | ⟨row, column, half⟩ := place
    · exact member
    · have steep : D ≤ E := by omega
      have low := heads_invariant (I := LowError D E) (fun _ _ => lowError_step steep) ends
        (lowError_start steep) last member
      obtain ⟨i, j⟩ := last
      simp only at row column
      subst column
      unfold LowError at low
      have none : (D : Int) - 1 - i = 0 := by omega
      rw [err_lastRow, none] at low
      omega

end EinkLiteOS.Theory.LineWalk
