/-
# Theory.Loop -- loops that end by a break

A loop `for (;;)` whose body, from the state `s` at its head, either breaks or leads to
another state at its head: `step s` is `none` or `some s'`.  `heads` lists the states at
the head, as far as the fuel lasts.  A measure bounds the fuel a loop takes, and two loops
whose turns correspond run through corresponding states.
-/
import Mathlib.Data.List.Chain

namespace EinkLiteOS.Theory.Loop

universe u v

set_option autoImplicit false

variable {σ : Type u} {τ : Type v} {step : σ → Option σ}

/-- The states at the head of the loop, or `none` when the fuel is out before it ends. -/
def heads (step : σ → Option σ) : Nat → σ → Option (List σ)
  | 0, _ => none
  | fuel + 1, s =>
      match step s with
      | none => some [s]
      | some s' => (heads step fuel s').map (s :: ·)

theorem heads_break {s : σ} (breaks : step s = none) (fuel : Nat) :
    heads step (fuel + 1) s = some [s] := by
  rw [heads, breaks]

theorem heads_next {s s' : σ} (next : step s = some s') (fuel : Nat) :
    heads step (fuel + 1) s = (heads step fuel s').map (s :: ·) := by
  rw [heads, next]

/-- What is true of the end of a loop and handed back by each step is true of the whole. -/
theorem heads_induction {P : σ → List σ → Prop} (breaks : ∀ s, step s = none → P s [s])
    (next : ∀ s s' rest, step s = some s' → P s' rest → P s (s :: rest)) {fuel : Nat} {s : σ}
    {states : List σ} (ends : heads step fuel s = some states) : P s states := by
  induction fuel generalizing s states with
  | zero => cases ends
  | succ fuel ih =>
      cases leads : step s with
      | none =>
          rw [heads_break leads] at ends
          cases ends
          exact breaks s leads
      | some s' =>
          rw [heads_next leads, Option.map_eq_some_iff] at ends
          obtain ⟨rest, ends, rfl⟩ := ends
          exact next s s' rest leads (ih ends)

theorem heads_head {fuel : Nat} {s : σ} {states : List σ}
    (ends : heads step fuel s = some states) : states.head? = some s :=
  heads_induction (P := fun s states => states.head? = some s) (fun _ _ => rfl)
    (fun _ _ _ _ _ => rfl) ends

/-- Each state follows from the one before it. -/
theorem heads_chain {fuel : Nat} {s : σ} {states : List σ}
    (ends : heads step fuel s = some states) :
    states.IsChain (fun a b => step a = some b) := by
  have both : states.head? = some s ∧ states.IsChain (fun a b => step a = some b) := by
    refine heads_induction (P := fun s states => states.head? = some s ∧
      states.IsChain (fun a b => step a = some b)) ?_ ?_ ends
    · intro s _
      exact ⟨rfl, List.isChain_singleton s⟩
    · rintro s s' rest next ⟨first, chain⟩
      refine ⟨rfl, ?_⟩
      cases rest with
      | nil => exact List.isChain_singleton s
      | cons a rest =>
          cases first
          exact List.isChain_cons_cons.mpr ⟨next, chain⟩
  exact both.2

/-- The loop breaks at the last of its states. -/
theorem exists_break {fuel : Nat} {s : σ} {states : List σ}
    (ends : heads step fuel s = some states) : ∃ last ∈ states, step last = none := by
  refine heads_induction (P := fun _ states => ∃ last ∈ states, step last = none) ?_ ?_ ends
  · intro s breaks
    exact ⟨s, List.mem_singleton_self s, breaks⟩
  · rintro s s' rest - ⟨last, member, breaks⟩
    exact ⟨last, List.mem_cons_of_mem s member, breaks⟩

section Invariants

variable {I : σ → Prop} (preserved : ∀ s s', I s → step s = some s' → I s')
include preserved

/-- An invariant holds at every head. -/
theorem heads_invariant {fuel : Nat} {s : σ} {states : List σ}
    (ends : heads step fuel s = some states) (start : I s) : ∀ a ∈ states, I a := by
  refine heads_induction (P := fun s states => I s → ∀ a ∈ states, I a) ?_ ?_ ends start
  · intro s _ start
    exact List.forall_mem_singleton.mpr start
  · intro s s' rest next ih start
    exact List.forall_mem_cons.mpr ⟨start, ih (preserved s s' start next)⟩

/-- Every head but the first follows from another head. -/
theorem exists_before {fuel : Nat} {s a : σ} {states : List σ}
    (ends : heads step fuel s = some states) (start : I s) (member : a ∈ states)
    (later : a ≠ s) : ∃ b ∈ states, I b ∧ step b = some a := by
  refine heads_induction (P := fun s states => I s → a ∈ states → a ≠ s →
    ∃ b ∈ states, I b ∧ step b = some a) ?_ ?_ ends start member later
  · intro s _ _ member later
    exact absurd (List.mem_singleton.mp member) later
  · intro s s' rest next ih start member later
    have inRest : a ∈ rest := (List.mem_cons.mp member).resolve_left later
    by_cases first : a = s'
    · subst first
      exact ⟨s, List.mem_cons_self, start, next⟩
    · obtain ⟨b, inside, holds, leads⟩ := ih (preserved s s' start next) inRest first
      exact ⟨b, List.mem_cons_of_mem s inside, holds, leads⟩

/-- A measure that falls with every step is fuel enough. -/
theorem heads_of_measure (measure : σ → Nat)
    (falls : ∀ s s', I s → step s = some s' → measure s' < measure s) {s : σ} (start : I s) :
    ∃ states, heads step (measure s + 1) s = some states := by
  generalize bound : measure s = fuel
  have enough : measure s ≤ fuel := Nat.le_of_eq bound
  clear bound
  induction fuel generalizing s with
  | zero =>
      cases leads : step s with
      | none => exact ⟨[s], heads_break leads 0⟩
      | some s' =>
          have := falls s s' start leads
          omega
  | succ fuel ih =>
      cases leads : step s with
      | none => exact ⟨[s], heads_break leads _⟩
      | some s' =>
          have fall := falls s s' start leads
          obtain ⟨rest, ends⟩ := ih (preserved s s' start leads) (by omega)
          exact ⟨s :: rest, by rw [heads_next leads, ends, Option.map_some]⟩

end Invariants

/-- Two loops whose heads correspond, turn by turn. -/
theorem heads_related {step' : τ → Option τ} {R : σ → τ → Prop}
    (follows : ∀ s t, R s t → Option.Rel R (step s) (step' t)) (fuel : Nat) {s : σ} {t : τ}
    (start : R s t) : Option.Rel (List.Forall₂ R) (heads step fuel s) (heads step' fuel t) := by
  induction fuel generalizing s t with
  | zero => exact .none
  | succ fuel ih =>
      have turn := follows s t start
      simp only [heads]
      generalize step s = next at turn
      generalize step' t = next' at turn
      cases turn with
      | none => exact .some (.cons start .nil)
      | some related =>
          have later := ih related
          dsimp only
          generalize heads step fuel _ = ends at later
          generalize heads step' fuel _ = ends' at later
          cases later with
          | none => exact .none
          | some both => exact .some (.cons start both)

end EinkLiteOS.Theory.Loop
