/-
# Theory.Runs -- runs of a labelled step function, all of them or the guarded ones

A system of several parties is a partial step function on its state, with one label
for every move a party can make; `none` is a move that is not enabled.  A run is a
list of labels, so a theorem about every run is about every interleaving.

A guard restricts the moves: `Run step guard s labels t` is a run each of whose
steps is enabled and allowed.  `Run.invariant` is the induction over runs, and
`perform` runs a fixed list of labels.
-/
import Mathlib.Data.List.Basic

namespace EinkLiteOS.Theory

set_option autoImplicit false

universe u v

variable {σ : Type u} {ℓ : Type v}

/-- The runs whose every step is enabled and allowed by the guard in the state
before it. -/
inductive Run (step : σ → ℓ → Option σ) (guard : σ → ℓ → Prop) : σ → List ℓ → σ → Prop where
  | done (s : σ) : Run step guard s [] s
  | move {s t u : σ} {label : ℓ} {labels : List ℓ} (allowed : guard s label)
      (enabled : step s label = some t) (rest : Run step guard t labels u) :
      Run step guard s (label :: labels) u

/-- The guard that allows every step. -/
def unguarded : σ → ℓ → Prop := fun _ _ => True

instance (s : σ) (label : ℓ) : Decidable (unguarded s label) :=
  inferInstanceAs (Decidable True)

namespace Run

variable {step : σ → ℓ → Option σ} {guard : σ → ℓ → Prop}

/-- **The run rule.**  What every allowed step preserves, every run preserves. -/
theorem invariant {I : σ → Prop}
    (preserved : ∀ s label t, I s → guard s label → step s label = some t → I t)
    {s t : σ} {labels : List ℓ} (start : I s) (run : Run step guard s labels t) : I t := by
  induction run with
  | done s => exact start
  | move allowed enabled _ ih => exact ih (preserved _ _ _ start allowed enabled)

/-- One run after another. -/
theorem append {s t u : σ} {front back : List ℓ} (first : Run step guard s front t)
    (second : Run step guard t back u) : Run step guard s (front ++ back) u := by
  induction first with
  | done s => exact second
  | move allowed enabled _ ih => exact .move allowed enabled (ih second)

end Run

/-- The state a list of labels leads to, if each of its steps is enabled and allowed. -/
def perform (step : σ → ℓ → Option σ) (guard : σ → ℓ → Prop)
    [∀ s label, Decidable (guard s label)] : σ → List ℓ → Option σ
  | s, [] => some s
  | s, label :: labels =>
      if guard s label then (step s label).bind fun t => perform step guard t labels else none

theorem run_of_perform {step : σ → ℓ → Option σ} {guard : σ → ℓ → Prop}
    [∀ s label, Decidable (guard s label)] {s t : σ} {labels : List ℓ}
    (reached : perform step guard s labels = some t) : Run step guard s labels t := by
  induction labels generalizing s with
  | nil =>
      obtain rfl := Option.some.inj reached
      exact .done s
  | cons label labels ih =>
      simp only [perform] at reached
      split at reached
      case isTrue allowed =>
        obtain ⟨next, enabled, rest⟩ := Option.bind_eq_some_iff.mp reached
        exact .move allowed enabled (ih rest)
      case isFalse => cases reached

end EinkLiteOS.Theory
