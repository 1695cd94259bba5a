/-
# Theory.LocalSteps -- functions that change one record

A state shows a view, and a view has a record for each index and a frame around each of them.
`At v i s r` says that the state shows the view `v`, except that the record at `i` is now `r`;
`Gives` says that a fallible function ends there.  A function that works at one index is followed step by step with
the rules `Gives.bind`, `Gives.ite` and `At.pure`, and only its record has to be kept in mind.
-/
import Mathlib.Logic.Basic

namespace EinkLiteOS.Theory

set_option autoImplicit false

/-- States, the views they show, and what the views are made of. -/
structure Layout (σ ν ι ρ φ : Type) where
  shows : σ → ν → Prop
  record : ν → ι → ρ
  frame : ν → ι → φ

namespace Layout

variable {σ ν ι ρ φ : Type}

/-- From one view to the other, the record at one index changes and nothing else does. -/
structure Changes (l : Layout σ ν ι ρ φ) (v v' : ν) (i : ι) (change : ρ → ρ) : Prop where
  here : l.record v' i = change (l.record v i)
  others : ∀ j, j ≠ i → l.record v' j = l.record v j
  frame : l.frame v' i = l.frame v i

/-- The state shows the view `v`, but for the record at `i`. -/
def At (l : Layout σ ν ι ρ φ) (v : ν) (i : ι) (s : σ) (r : ρ) : Prop :=
  ∃ v', l.shows s v' ∧ l.Changes v v' i fun _ => r

/-- There is a result, and it shows that. -/
def Gives (l : Layout σ ν ι ρ φ) (v : ν) (i : ι) (result : Option σ) (r : ρ) : Prop :=
  ∃ s, result = some s ∧ l.At v i s r

variable {l : Layout σ ν ι ρ φ} {v v' v'' : ν} {i : ι} {change change' : ρ → ρ}

theorem Changes.refl (v : ν) (i : ι) : l.Changes v v i id := ⟨rfl, fun _ _ => rfl, rfl⟩

theorem Changes.trans (first : l.Changes v v' i change) (second : l.Changes v' v'' i change') :
    l.Changes v v'' i (fun r => change' (change r)) where
  here := by rw [second.here, first.here]
  others j different := (second.others j different).trans (first.others j different)
  frame := second.frame.trans first.frame

theorem Changes.congr (changes : l.Changes v v' i change)
    (same : change (l.record v i) = change' (l.record v i)) : l.Changes v v' i change' :=
  { changes with here := changes.here.trans same }

/-- **The frame rule**: a property of all records has to be looked at in one place. -/
theorem Changes.every {P : ι → ρ → Prop} (changes : l.Changes v v' i change)
    (here : P i (change (l.record v i))) (others : ∀ j, j ≠ i → P j (l.record v j)) (j : ι) :
    P j (l.record v' j) := by
  by_cases same : j = i
  · subst same
    rw [changes.here]
    exact here
  · rw [changes.others j same]
    exact others j same

variable {s s' : σ} {r r' : ρ} {x y : Option σ} {f : σ → Option σ}

theorem At.start (shows : l.shows s v) (i : ι) : l.At v i s (l.record v i) :=
  ⟨v, shows, rfl, fun _ _ => rfl, rfl⟩

/-- What works on whatever view is shown. -/
theorem At.gives (at_ : l.At v i s r)
    (step : ∀ v', l.shows s v' → l.record v' i = r →
      ∃ s' v'', x = some s' ∧ l.shows s' v'' ∧ l.Changes v' v'' i change) :
    l.Gives v i x (change r) := by
  obtain ⟨v', shows, changes⟩ := at_
  obtain ⟨s', v'', ran, shows', changes'⟩ := step v' shows changes.here
  exact ⟨s', ran, v'', shows', changes.trans changes'⟩

/-- A step that cannot fail. -/
theorem At.step (at_ : l.At v i s r)
    (step : ∀ v', l.shows s v' → ∃ v'', l.shows s' v'' ∧ l.Changes v' v'' i change) :
    l.At v i s' (change r) := by
  obtain ⟨v', shows, changes⟩ := at_
  obtain ⟨v'', shows', changes'⟩ := step v' shows
  exact ⟨v'', shows', changes.trans changes'⟩

theorem At.pure (at_ : l.At v i s r) : l.Gives v i (Pure.pure s) r := ⟨s, rfl, at_⟩

theorem Gives.bind (first : l.Gives v i x r) (next : ∀ s, l.At v i s r → l.Gives v i (f s) r') :
    l.Gives v i (x >>= f) r' := by
  obtain ⟨s, rfl, at_⟩ := first
  exact next s at_

/-- A test of the record. -/
theorem Gives.ite {p : Bool} (yes : p = true → l.Gives v i x r)
    (no : p = false → l.Gives v i y r') :
    l.Gives v i (if p then x else y) (if p then r else r') := by
  cases p with
  | true => exact yes rfl
  | false => exact no rfl

end Layout

end EinkLiteOS.Theory
