/-
# Theory.ShiftRegister -- a shift register with feedback, and what it detects

The register of a reflected cyclic checksum: a word that is shifted right, with
`taps` added (`^^^`) whenever the bit shifted out is set.  A step is linear, so
what a set of flipped input bits does to the register is the sum of what each
does; a bit that `n` steps follow contributes `step^[n] 1`, and `n` is its `rank`.

`syndrome` is that sum (`gather` adds the contributions of a set).  Flips whose
syndrome is not zero are noticed; it is not zero

* for an odd number of flips, when the taps have an odd number of bits
  (`syndrome_ne_zero_of_odd`);
* for two flips, when the register started at 1 is not back at 1 within their
  ranks (`syndrome_ne_zero_of_pair`; `clearOf` is a check of that);
* for any flips whose ranks lie within one width of the register, when the top
  tap is set (`syndrome_ne_zero_of_burst`).
-/
import Mathlib.Algebra.BigOperators.Group.Finset.Basic
import Mathlib.Algebra.Field.ZMod
import Mathlib.Data.Finset.Fold
import Mathlib.Logic.Function.Iterate

namespace EinkLiteOS.Theory.ShiftRegister

set_option autoImplicit false

universe u

variable {w : Nat} (taps : BitVec w)

/-- One shift: the bit that leaves the register feeds the taps. -/
def step (s : BitVec w) : BitVec w := if s.getLsbD 0 then s >>> 1 ^^^ taps else s >>> 1

/-! ## Linearity -/

theorem step_xor (a b : BitVec w) : step taps (a ^^^ b) = step taps a ^^^ step taps b := by
  simp only [step]
  rw [BitVec.getLsbD_xor, BitVec.ushiftRight_xor_distrib]
  cases a.getLsbD 0 <;> cases b.getLsbD 0
  · rfl
  · exact BitVec.xor_assoc _ _ _
  · show a >>> 1 ^^^ b >>> 1 ^^^ taps = a >>> 1 ^^^ taps ^^^ b >>> 1
    rw [BitVec.xor_assoc, BitVec.xor_comm (b >>> 1), BitVec.xor_assoc]
  · show a >>> 1 ^^^ b >>> 1 = a >>> 1 ^^^ taps ^^^ (b >>> 1 ^^^ taps)
    rw [BitVec.xor_comm (b >>> 1) taps, BitVec.xor_assoc, ← BitVec.xor_assoc taps,
      BitVec.xor_self, BitVec.zero_xor]

theorem iterate_xor (n : Nat) (a b : BitVec w) :
    (step taps)^[n] (a ^^^ b) = (step taps)^[n] a ^^^ (step taps)^[n] b := by
  induction n generalizing a b with
  | zero => rfl
  | succ n ih =>
      rw [Function.iterate_succ_apply, step_xor, ih]
      rfl

theorem iterate_zero (n : Nat) : (step taps)^[n] 0#w = 0#w := by
  have twice := iterate_xor taps n 0#w 0#w
  rwa [BitVec.xor_self, BitVec.xor_self] at twice

/-- With the top tap set only the empty register steps to the empty one. -/
theorem eq_zero_of_step (top : taps.msb = true) {s : BitVec w} (stopped : step taps s = 0#w) :
    s = 0#w := by
  simp only [step] at stopped
  cases low : s.getLsbD 0 with
  | true =>
      rw [low, if_pos rfl] at stopped
      have fed := BitVec.xor_eq_zero_iff.mp stopped
      have shifted : (s >>> 1).msb = false := by
        rw [BitVec.msb_ushiftRight]
        rfl
      rw [fed, top] at shifted
      cases shifted
  | false =>
      rw [low, if_neg Bool.false_ne_true] at stopped
      apply BitVec.eq_of_getLsbD_eq
      intro i _
      cases i with
      | zero => rw [low, BitVec.getLsbD_zero]
      | succ i =>
          have bit := congrArg (fun word : BitVec w => word.getLsbD i) stopped
          simp only [BitVec.getLsbD_ushiftRight, BitVec.getLsbD_zero] at bit
          rw [Nat.add_comm i 1, bit, BitVec.getLsbD_zero]

theorem eq_zero_of_iterate (top : taps.msb = true) {n : Nat} {s : BitVec w}
    (stopped : (step taps)^[n] s = 0#w) : s = 0#w := by
  induction n generalizing s with
  | zero => exact stopped
  | succ n ih => exact eq_zero_of_step taps top (ih stopped)

theorem iterate_injective (top : taps.msb = true) (n : Nat) :
    Function.Injective (step taps)^[n] := by
  intro a b same
  apply BitVec.xor_eq_zero_iff.mp
  apply eq_zero_of_iterate taps top (n := n)
  rw [iterate_xor, same, BitVec.xor_self]

/-! ## Single bits -/

theorem step_twoPow {j : Nat} (inside : j + 1 < w) :
    step taps (BitVec.twoPow w (j + 1)) = BitVec.twoPow w j := by
  simp only [step]
  rw [BitVec.getLsbD_twoPow]
  have low : (decide (j + 1 < w) && decide (j + 1 = 0)) = false := by simp
  rw [low, if_neg Bool.false_ne_true]
  apply BitVec.eq_of_getLsbD_eq
  intro i _
  rw [BitVec.getLsbD_ushiftRight, BitVec.getLsbD_twoPow, BitVec.getLsbD_twoPow]
  simp only [inside, show j < w by omega, decide_true, Bool.true_and, decide_eq_decide]
  omega

/-- A bit reaches the end of the register after as many steps as its position. -/
theorem iterate_twoPow {j : Nat} (inside : j < w) :
    (step taps)^[j] (BitVec.twoPow w j) = 1#w := by
  induction j with
  | zero => exact BitVec.twoPow_zero
  | succ j ih =>
      rw [Function.iterate_succ_apply, step_twoPow taps inside]
      exact ih (by omega)

theorem iterate_twoPow_of_le {j n : Nat} (inside : j < w) (late : j ≤ n) :
    (step taps)^[n] (BitVec.twoPow w j) = (step taps)^[n - j] 1#w := by
  conv => lhs; rw [← Nat.sub_add_cancel late]
  rw [Function.iterate_add_apply, iterate_twoPow taps inside]

/-! ## Parity -/

/-- The number of set bits, modulo two. -/
def parity (s : BitVec w) : ZMod 2 := ∑ i ∈ Finset.range w, if s.getLsbD i then 1 else 0

theorem parity_zero : parity 0#w = 0 := by
  simp only [parity]
  simp

theorem parity_xor (a b : BitVec w) : parity (a ^^^ b) = parity a + parity b := by
  simp only [parity]
  rw [← Finset.sum_add_distrib]
  apply Finset.sum_congr rfl
  intro i _
  rw [BitVec.getLsbD_xor]
  cases a.getLsbD i <;> cases b.getLsbD i <;> decide

/-- A shift loses the low bit. -/
theorem parity_shift (s : BitVec w) :
    parity (s >>> 1) + (if s.getLsbD 0 then 1 else 0) = parity s := by
  have top : (if s.getLsbD w then (1 : ZMod 2) else 0) = 0 := by
    rw [BitVec.getLsbD_of_ge s w (Nat.le_refl w), if_neg Bool.false_ne_true]
  have split := Finset.sum_range_succ' (fun i => if s.getLsbD i then (1 : ZMod 2) else 0) w
  rw [Finset.sum_range_succ, top, add_zero] at split
  simp only [parity]
  rw [split]
  congr 1
  apply Finset.sum_congr rfl
  intro i _
  rw [BitVec.getLsbD_ushiftRight, Nat.add_comm]

/-- **Odd taps keep the parity**: what the shift loses the taps give back. -/
theorem parity_step (odd : parity taps = 1) (s : BitVec w) : parity (step taps s) = parity s := by
  rw [← parity_shift s]
  simp only [step]
  cases s.getLsbD 0 with
  | true =>
      show parity (s >>> 1 ^^^ taps) = parity (s >>> 1) + 1
      rw [parity_xor, odd]
  | false =>
      show parity (s >>> 1) = parity (s >>> 1) + 0
      rw [add_zero]

theorem parity_iterate (odd : parity taps = 1) (n : Nat) (s : BitVec w) :
    parity ((step taps)^[n] s) = parity s := by
  induction n generalizing s with
  | zero => rfl
  | succ n ih => rw [Function.iterate_succ_apply, ih, parity_step taps odd]

theorem parity_one (positive : 0 < w) : parity 1#w = 1 := by
  rw [← BitVec.twoPow_zero]
  simp only [parity]
  rw [Finset.sum_eq_single 0]
  · simp [positive]
  · intro i _ other
    simp [other.symm]
  · intro outside
    exact absurd (Finset.mem_range.mpr positive) outside

/-! ## The way back to 1 -/

/-- Does the register stay clear of 1 in its next `n` steps? -/
def clearOf : Nat → BitVec w → Bool
  | 0, _ => true
  | n + 1, s => step taps s != 1#w && clearOf n (step taps s)

theorem iterate_ne_one {n : Nat} {s : BitVec w} (clear : clearOf taps n s = true) {k : Nat}
    (positive : 0 < k) (within : k ≤ n) : (step taps)^[k] s ≠ 1#w := by
  induction n generalizing s k with
  | zero => omega
  | succ n ih =>
      rw [clearOf, Bool.and_eq_true, bne_iff_ne] at clear
      obtain ⟨now, later⟩ := clear
      cases k with
      | zero => omega
      | succ k =>
          rw [Function.iterate_succ_apply]
          cases k with
          | zero => exact now
          | succ k => exact ih later (Nat.succ_pos k) (by omega)

/-! ## Sets of flips -/

section Gather

variable {ι : Type u}

/-- The sum of the contributions of a set. -/
def gather (contribution : ι → BitVec w) (flips : Finset ι) : BitVec w :=
  flips.fold (· ^^^ ·) 0#w contribution

@[simp] theorem gather_empty (contribution : ι → BitVec w) : gather contribution ∅ = 0#w := rfl

theorem gather_insert [DecidableEq ι] (contribution : ι → BitVec w) {p : ι} {flips : Finset ι}
    (fresh : p ∉ flips) :
    gather contribution (insert p flips) = contribution p ^^^ gather contribution flips :=
  Finset.fold_insert fresh

theorem gather_pair [DecidableEq ι] (contribution : ι → BitVec w) {p q : ι} (other : p ≠ q) :
    gather contribution {p, q} = contribution p ^^^ contribution q := by
  rw [gather_insert contribution (by simpa using other), gather, Finset.fold_singleton,
    BitVec.xor_zero]

/-- Steps after a sum are steps after each contribution. -/
theorem iterate_gather (n : Nat) {contribution stepped : ι → BitVec w} {flips : Finset ι}
    (each : ∀ p ∈ flips, (step taps)^[n] (contribution p) = stepped p) :
    (step taps)^[n] (gather contribution flips) = gather stepped flips := by
  rw [gather, gather, ← Finset.fold_congr each, ← Finset.fold_hom (iterate_xor taps n),
    iterate_zero]

/-- A sum of distinct single bits holds each of them. -/
theorem getLsbD_gather_twoPow {bit : ι → Nat} {flips : Finset ι} (apart : Set.InjOn bit flips)
    (inside : ∀ p ∈ flips, bit p < w) (i : Nat) :
    (gather (fun p => BitVec.twoPow w (bit p)) flips).getLsbD i =
      decide (∃ p ∈ flips, bit p = i) := by
  classical
  induction flips using Finset.induction_on with
  | empty => simp
  | insert p rest fresh ih =>
      rw [Finset.coe_insert] at apart
      have inner := ih (apart.mono (Set.subset_insert _ _))
        fun q member => inside q (Finset.mem_insert_of_mem member)
      rw [gather_insert _ fresh, BitVec.getLsbD_xor, inner, BitVec.getLsbD_twoPow]
      have fits := inside p (Finset.mem_insert_self p rest)
      by_cases here : bit p = i
      · have only : ¬ ∃ q ∈ rest, bit q = i := by
          rintro ⟨q, member, same⟩
          have equal := apart (Set.mem_insert _ _)
            (Set.mem_insert_of_mem _ (Finset.mem_coe.mpr member)) (here.trans same.symm)
          exact fresh (equal ▸ member)
        rw [here] at fits
        rw [decide_eq_false only]
        simp [fits, here]
      · simp [here]

end Gather

section Syndrome

variable {ι : Type u} (rank : ι → Nat) (flips : Finset ι)

/-- The sum of what the flips do to the register, each followed by as many steps as
its rank. -/
def syndrome : BitVec w := gather (fun p => (step taps)^[rank p] 1#w) flips

variable {taps rank flips}

/-- The parity of the syndrome counts the flips. -/
theorem parity_syndrome (odd : parity taps = 1) (positive : 0 < w) :
    parity (syndrome taps rank flips) = flips.card := by
  classical
  simp only [syndrome]
  induction flips using Finset.induction_on with
  | empty => exact parity_zero
  | insert p rest fresh ih =>
      rw [gather_insert _ fresh, parity_xor, ih, parity_iterate taps odd, parity_one positive,
        Finset.card_insert_of_notMem fresh, Nat.cast_add, Nat.cast_one, add_comm]

/-- **An odd number of flips is noticed.** -/
theorem syndrome_ne_zero_of_odd (odd : parity taps = 1) (positive : 0 < w)
    (count : Odd flips.card) : syndrome taps rank flips ≠ 0#w := by
  intro unnoticed
  have counted : parity (syndrome taps rank flips) = flips.card := parity_syndrome odd positive
  rw [unnoticed, parity_zero, ZMod.natCast_eq_one_iff_odd.mpr count] at counted
  cases counted

/-- The register is not at one place after two different numbers of steps within the
way back to 1. -/
theorem iterate_one_ne {n : Nat} (top : taps.msb = true) (clear : clearOf taps n 1#w = true)
    {i j : Nat} (before : i < j) (within : j ≤ n) :
    (step taps)^[i] 1#w ≠ (step taps)^[j] 1#w := by
  intro same
  have regroup : j = i + (j - i) := by omega
  rw [regroup, Function.iterate_add_apply] at same
  have back := iterate_injective taps top i same
  exact iterate_ne_one taps clear (show 0 < j - i by omega) (by omega) back.symm

/-- **Two flips are noticed** while their ranks stay within the way back to 1. -/
theorem syndrome_ne_zero_of_pair {n : Nat} (top : taps.msb = true)
    (clear : clearOf taps n 1#w = true) (apart : Set.InjOn rank flips)
    (within : ∀ p ∈ flips, rank p ≤ n) (count : flips.card = 2) :
    syndrome taps rank flips ≠ 0#w := by
  classical
  obtain ⟨p, q, other, rfl⟩ := Finset.card_eq_two.mp count
  rw [syndrome, gather_pair _ other, Ne, BitVec.xor_eq_zero_iff]
  have ranks : rank p ≠ rank q := fun same => other (apart (by simp) (by simp) same)
  rcases Nat.lt_or_gt_of_ne ranks with before | after
  · exact iterate_one_ne top clear before (within q (by simp))
  · exact (iterate_one_ne top clear after (within p (by simp))).symm

/-- Ranks within one width of the register differ from one number of steps by the
bits of one word. -/
theorem iterate_window {m k : Nat} (inside : k < w) :
    (step taps)^[m + (w - 1)] (BitVec.twoPow w (w - 1 - k)) = (step taps)^[m + k] 1#w := by
  have steps : m + (w - 1) - (w - 1 - k) = m + k := by omega
  rw [iterate_twoPow_of_le taps (by omega) (by omega), steps]

/-- **A burst is noticed**: flips whose ranks lie within one width of the register. -/
theorem syndrome_ne_zero_of_burst (top : taps.msb = true) (apart : Set.InjOn rank flips)
    {m : Nat} (window : ∀ p ∈ flips, m ≤ rank p ∧ rank p < m + w) (nonempty : flips.Nonempty) :
    syndrome taps rank flips ≠ 0#w := by
  obtain ⟨p, member⟩ := nonempty
  have gathered : (step taps)^[m + (w - 1)]
      (gather (fun q => BitVec.twoPow w (w - 1 - (rank q - m))) flips) =
        syndrome taps rank flips := by
    apply iterate_gather
    intro q chosen
    obtain ⟨above, below⟩ := window q chosen
    rw [iterate_window (by omega), Nat.add_sub_cancel' above]
  have positions : Set.InjOn (fun q => w - 1 - (rank q - m)) flips := by
    intro a inA b inB same
    obtain ⟨aboveA, belowA⟩ := window a inA
    obtain ⟨aboveB, belowB⟩ := window b inB
    apply apart inA inB
    dsimp only at same
    omega
  have inside : ∀ q ∈ flips, w - 1 - (rank q - m) < w := by
    intro q chosen
    obtain ⟨above, below⟩ := window q chosen
    omega
  have bit := getLsbD_gather_twoPow positions inside (w - 1 - (rank p - m))
  rw [← gathered]
  intro unnoticed
  rw [eq_zero_of_iterate taps top unnoticed, BitVec.getLsbD_zero] at bit
  exact of_decide_eq_false bit.symm ⟨p, member, rfl⟩

end Syndrome

end EinkLiteOS.Theory.ShiftRegister
