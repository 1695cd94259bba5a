/-
# Theory.BitMap -- a word of flags, the first one in front

Bit `i` from the front says something about the `i`-th of some things.  `frontBit >>> i` is
that bit alone; counting the leading zeros finds the first thing of which it is said.
-/
import Mathlib.Data.Nat.Basic

namespace EinkLiteOS.Theory.BitMap

set_option autoImplicit false

variable {w : Nat}

/-- The bit in front. -/
def frontBit (w : Nat) : BitVec w := BitVec.twoPow w (w - 1)

/-- The bit `i` places behind the front one. -/
theorem getMsbD_frontBit {i j : Nat} (inside : i < w) :
    (frontBit w >>> i).getMsbD j = decide (j = i) := by
  rw [BitVec.getMsbD_ushiftRight, frontBit, BitVec.getMsbD, BitVec.getLsbD_twoPow]
  by_cases same : j = i
  · subst same
    simp [inside]
    omega
  · by_cases small : j < i
    · simp [small, same]
    · simp only [same, decide_false, small, Bool.not_false, Bool.true_and, Bool.and_eq_false_iff,
        decide_eq_false_iff_not]
      omega

theorem getMsbD_set (flags : BitVec w) {i j : Nat} (inside : i < w) :
    (flags ||| frontBit w >>> i).getMsbD j = (decide (j = i) || flags.getMsbD j) := by
  rw [BitVec.getMsbD_or, getMsbD_frontBit inside, Bool.or_comm]

theorem getMsbD_clear (flags : BitVec w) {i j : Nat} (inside : i < w) :
    (flags &&& ~~~(frontBit w >>> i)).getMsbD j = (!decide (j = i) && flags.getMsbD j) := by
  rw [BitVec.getMsbD_and, BitVec.getMsbD_not, getMsbD_frontBit inside]
  by_cases small : j < w
  · rw [decide_eq_true small, Bool.true_and, Bool.and_comm]
  · rw [BitVec.getMsbD_of_ge _ _ (Nat.le_of_not_lt small), Bool.false_and, Bool.and_false]

/-- **The leading zeros lead to the first flag.** -/
theorem clz_first (flags : BitVec w) (some : flags ≠ 0#w) :
    flags.clz.toNat < w ∧ flags.getMsbD flags.clz.toNat = true ∧
      ∀ i, i < flags.clz.toNat → flags.getMsbD i = false := by
  have positive : 0 < w := by
    rcases Nat.eq_zero_or_pos w with rfl | positive
    · exact absurd (BitVec.of_length_zero) some
    · exact positive
  have inside : flags.clz.toNat < w := by
    have less := BitVec.lt_def.mp (BitVec.clz_lt_iff_ne_zero.mpr some)
    rw [BitVec.natCast_eq_ofNat, BitVec.toNat_ofNat, Nat.mod_eq_of_lt Nat.lt_two_pow_self] at less
    exact less
  refine ⟨inside, ?_, ?_⟩
  · rw [BitVec.getMsbD, BitVec.getLsbD_true_clz_of_ne_zero positive some, decide_eq_true inside]
    rfl
  · intro i before
    have small : flags.toNat < 2 ^ (w - flags.clz.toNat) := BitVec.toNat_lt_two_pow_sub_clz
    rw [BitVec.getMsbD, BitVec.getLsbD, Nat.testBit_lt_two_pow, Bool.and_false]
    exact Nat.lt_of_lt_of_le small (Nat.pow_le_pow_right (by decide) (by omega))

end EinkLiteOS.Theory.BitMap
