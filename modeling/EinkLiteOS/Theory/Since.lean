/-
# Theory.Since -- what has happened and has not been ended since

The past operator of histories: something started, and nothing ended it afterwards.
`since_append` is how a stretch of history changes it.
-/
import Mathlib.Data.List.Basic

namespace EinkLiteOS.Theory

set_option autoImplicit false

universe u

variable {α : Type u}

/-- Something in the history starts it, and nothing behind that ends it. -/
def Since (starts ends : α → Prop) (history : List α) : Prop :=
  ∃ front a back, history = front ++ a :: back ∧ starts a ∧ ∀ b ∈ back, ¬ ends b

variable {starts ends : α → Prop}

/-- Nothing starts it. -/
theorem not_since_of_none {history : List α} (none : ∀ a ∈ history, ¬ starts a) :
    ¬ Since starts ends history := by
  rintro ⟨front, a, back, rfl, started, -⟩
  exact none a (List.mem_append_right front List.mem_cons_self) started

/-- **It holds after a stretch** if the stretch starts it, or does not end it. -/
theorem since_append (history later : List α) :
    Since starts ends (history ++ later) ↔
      Since starts ends later ∨ Since starts ends history ∧ ∀ b ∈ later, ¬ ends b := by
  constructor
  · rintro ⟨front, a, back, split, started, quiet⟩
    rcases List.append_eq_append_iff.mp split with ⟨middle, rfl, rfl⟩ | ⟨middle, rfl, rest⟩
    · exact Or.inl ⟨middle, a, back, rfl, started, quiet⟩
    · cases middle with
      | nil => exact Or.inl ⟨[], a, back, rest.symm, started, quiet⟩
      | cons first middle =>
          obtain ⟨rfl, rfl⟩ := List.cons.inj rest
          refine Or.inr ⟨⟨front, a, middle, rfl, started, ?_⟩, ?_⟩
          · exact fun b member => quiet b (List.mem_append_left later member)
          · exact fun b member => quiet b (List.mem_append_right middle member)
  · rintro (⟨front, a, back, rfl, started, quiet⟩ | ⟨⟨front, a, back, rfl, started, quiet⟩, more⟩)
    · exact ⟨history ++ front, a, back, (List.append_assoc _ _ _).symm, started, quiet⟩
    · refine ⟨front, a, back ++ later, ?_, started, ?_⟩
      · rw [List.append_assoc, List.cons_append]
      · intro b member
        rcases List.mem_append.mp member with before | after
        · exact quiet b before
        · exact more b after

/-- A stretch in which nothing of it happens. -/
theorem since_append_quiet {history later : List α} (noStart : ∀ b ∈ later, ¬ starts b)
    (noEnd : ∀ b ∈ later, ¬ ends b) :
    Since starts ends (history ++ later) ↔ Since starts ends history := by
  rw [since_append, or_iff_right (not_since_of_none noStart), and_iff_left noEnd]

/-- A stretch that ends it and does not start it. -/
theorem not_since_append {history later : List α} (noStart : ∀ b ∈ later, ¬ starts b)
    {b : α} (member : b ∈ later) (ended : ends b) : ¬ Since starts ends (history ++ later) := by
  rw [since_append, or_iff_right (not_since_of_none noStart)]
  exact fun both => both.2 b member ended

end EinkLiteOS.Theory
