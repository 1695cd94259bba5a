/-
# Theory.Transducer -- machines that read one symbol at a time and emit

A `Transducer` reads a stream symbol by symbol; each symbol moves its state and
emits a finite list of outputs.  An interrupt handler that is called once per
received byte is one, and so is a thread that is called once per message.

* `final` is the state after a stream, `trace` the concatenated outputs, and
  `emissions` the outputs with the position (the number of symbols read so far)
  at which each was emitted.
* `final_invariant` is the run rule: what one step preserves, a run preserves.
* `final_observed` reads off the outputs what a run does to an observation.
* `Simulates` is the step-wise simulation of one transducer by another;
  `Simulates.final` and `Simulates.emissions` lift it to whole runs.
* `Corresponds` is the same with the outputs related and not computed: two runs
  on one stream, `Corresponds.final` and `Corresponds.trace`.
-/
import Mathlib.Data.List.Forall2

namespace EinkLiteOS.Theory

set_option autoImplicit false

universe u v w x y

/-- A deterministic machine: reading one symbol moves the state and emits. -/
structure Transducer (σ : Type u) (α : Type v) (ω : Type w) where
  step : σ → α → σ × List ω

namespace Transducer

variable {σ : Type u} {α : Type v} {ω : Type w} (T : Transducer σ α ω)

/-- The state after reading a stream. -/
def final : σ → List α → σ
  | s, [] => s
  | s, a :: rest => final (T.step s a).1 rest

/-- Everything emitted while reading a stream. -/
def trace : σ → List α → List ω
  | _, [] => []
  | s, a :: rest => (T.step s a).2 ++ trace (T.step s a).1 rest

/-- The outputs of a run, each with the number of symbols read when it was
emitted; `k` symbols were read before the run. -/
def emissions : Nat → σ → List α → List (Nat × ω)
  | _, _, [] => []
  | k, s, a :: rest =>
      (T.step s a).2.map (fun out => (k + 1, out)) ++ emissions (k + 1) (T.step s a).1 rest

@[simp] theorem final_nil (s : σ) : T.final s [] = s := rfl

@[simp] theorem final_cons (s : σ) (a : α) (rest : List α) :
    T.final s (a :: rest) = T.final (T.step s a).1 rest := rfl

@[simp] theorem trace_nil (s : σ) : T.trace s [] = [] := rfl

@[simp] theorem trace_cons (s : σ) (a : α) (rest : List α) :
    T.trace s (a :: rest) = (T.step s a).2 ++ T.trace (T.step s a).1 rest := rfl

@[simp] theorem emissions_nil (k : Nat) (s : σ) : T.emissions k s [] = [] := rfl

@[simp] theorem emissions_cons (k : Nat) (s : σ) (a : α) (rest : List α) :
    T.emissions k s (a :: rest) =
      (T.step s a).2.map (fun out => (k + 1, out)) ++
        T.emissions (k + 1) (T.step s a).1 rest := rfl

theorem final_append (s : σ) (front back : List α) :
    T.final s (front ++ back) = T.final (T.final s front) back := by
  induction front generalizing s with
  | nil => rfl
  | cons a rest ih => exact ih _

theorem emissions_append (k : Nat) (s : σ) (front back : List α) :
    T.emissions k s (front ++ back) =
      T.emissions k s front ++ T.emissions (k + front.length) (T.final s front) back := by
  induction front generalizing k s with
  | nil => rfl
  | cons a rest ih =>
      simp only [List.cons_append, emissions_cons, final_cons, List.length_cons, ih,
        List.append_assoc, Nat.add_right_comm k 1, Nat.add_assoc]

/-- **The run rule.**  A property every step preserves holds after every run. -/
theorem final_invariant {I : σ → Prop} (preserved : ∀ s a, I s → I (T.step s a).1)
    {s : σ} (start : I s) (stream : List α) : I (T.final s stream) := by
  induction stream generalizing s with
  | nil => exact start
  | cons a rest ih => exact ih (preserved s a start)

theorem trace_append (s : σ) (front back : List α) :
    T.trace s (front ++ back) = T.trace s front ++ T.trace (T.final s front) back := by
  induction front generalizing s with
  | nil => rfl
  | cons a rest ih => rw [List.cons_append, trace_cons, ih, trace_cons, List.append_assoc]; rfl

/-- An observation that every step changes by its outputs alone, a run changes by its
outputs. -/
theorem final_observed {β : Type x} {observe : σ → β} {read : β → ω → β}
    (observed : ∀ s a, observe (T.step s a).1 = (T.step s a).2.foldl read (observe s))
    (s : σ) (stream : List α) :
    observe (T.final s stream) = (T.trace s stream).foldl read (observe s) := by
  induction stream generalizing s with
  | nil => rfl
  | cons a rest ih => rw [final_cons, ih, observed, trace_cons, List.foldl_append]

/-- An emission is made by one step of the run, at the state its prefix reached. -/
theorem mem_emissions {k : Nat} {s : σ} {stream : List α} {e : Nat × ω} :
    e ∈ T.emissions k s stream ↔
      ∃ front a back, stream = front ++ a :: back ∧ e.1 = k + front.length + 1 ∧
        e.2 ∈ (T.step (T.final s front) a).2 := by
  induction stream generalizing k s with
  | nil => simp
  | cons b rest ih =>
      simp only [emissions_cons, List.mem_append, List.mem_map, ih]
      constructor
      · rintro (⟨out, member, rfl⟩ | ⟨front, a, back, rfl, position, member⟩)
        · exact ⟨[], b, rest, rfl, rfl, member⟩
        · exact ⟨b :: front, a, back, rfl, by rw [position, List.length_cons]; omega, member⟩
      · rintro ⟨front, a, back, split, position, member⟩
        cases front with
        | nil =>
            obtain ⟨rfl, rfl⟩ := List.cons.inj split
            exact Or.inl ⟨e.2, member, Prod.ext position.symm rfl⟩
        | cons c front =>
            obtain ⟨rfl, rfl⟩ := List.cons.inj split
            refine Or.inr ⟨front, a, back, rfl, ?_, member⟩
            rw [position, List.length_cons]
            omega

/-- What the last symbol of a stream makes the machine emit. -/
theorem mem_emissions_last {s : σ} {front : List α} {a : α} {out : ω} :
    ((front ++ [a]).length, out) ∈ T.emissions 0 s (front ++ [a]) ↔
      out ∈ (T.step (T.final s front) a).2 := by
  rw [mem_emissions]
  constructor
  · rintro ⟨front', a', back, split, position, member⟩
    have length := congrArg List.length split
    simp only [List.length_append, List.length_cons, List.length_nil] at length position
    have none : back = [] := List.eq_nil_of_length_eq_zero (by omega)
    subst none
    obtain ⟨rfl, last⟩ := List.append_inj' split rfl
    obtain rfl := (List.cons.inj last).1
    exact member
  · intro member
    refine ⟨front, a, [], rfl, ?_, member⟩
    rw [List.length_append, List.length_singleton]
    omega

theorem emissions_snd (k : Nat) (s : σ) (stream : List α) :
    (T.emissions k s stream).map Prod.snd = T.trace s stream := by
  induction stream generalizing k s with
  | nil => rfl
  | cons a rest ih =>
      rw [emissions_cons, trace_cons, List.map_append, ih, List.map_map]
      exact congrArg (· ++ _) (List.map_id _)

end Transducer

/-! ## Simulation -/

section Simulation

variable {σ : Type u} {τ : Type v} {α : Type w} {ω : Type x} {ω' : Type y}

/-- `A` simulates `T` along `R`: every step keeps the states related, and what
`A` emits is what `T` emits, seen through `view`. -/
structure Simulates (T : Transducer σ α ω) (A : Transducer τ α ω') (R : σ → τ → Prop)
    (view : ω → ω') : Prop where
  related : ∀ s t a, R s t → R (T.step s a).1 (A.step t a).1
  emitted : ∀ s t a, R s t → (A.step t a).2 = (T.step s a).2.map view

namespace Simulates

variable {T : Transducer σ α ω} {A : Transducer τ α ω'} {R : σ → τ → Prop} {view : ω → ω'}

theorem final (sim : Simulates T A R view) {s : σ} {t : τ} (start : R s t) (stream : List α) :
    R (T.final s stream) (A.final t stream) := by
  induction stream generalizing s t with
  | nil => exact start
  | cons a rest ih => exact ih (sim.related s t a start)

theorem emissions (sim : Simulates T A R view) {s : σ} {t : τ} (start : R s t)
    (k : Nat) (stream : List α) :
    A.emissions k t stream = (T.emissions k s stream).map fun e => (e.1, view e.2) := by
  induction stream generalizing s t k with
  | nil => rfl
  | cons a rest ih =>
      rw [Transducer.emissions_cons, Transducer.emissions_cons, sim.emitted s t a start,
        ih (sim.related s t a start)]
      simp only [List.map_append, List.map_map, Function.comp_def]

end Simulates

/-- `T` and `A` move in step along `R`, and each emits what corresponds to what the
other emits. -/
structure Corresponds (T : Transducer σ α ω) (A : Transducer τ α ω') (R : σ → τ → Prop)
    (E : ω → ω' → Prop) : Prop where
  related : ∀ s t a, R s t → R (T.step s a).1 (A.step t a).1
  emitted : ∀ s t a, R s t → List.Forall₂ E (T.step s a).2 (A.step t a).2

namespace Corresponds

variable {T : Transducer σ α ω} {A : Transducer τ α ω'} {R : σ → τ → Prop} {E : ω → ω' → Prop}

theorem final (cor : Corresponds T A R E) {s : σ} {t : τ} (start : R s t) (stream : List α) :
    R (T.final s stream) (A.final t stream) := by
  induction stream generalizing s t with
  | nil => exact start
  | cons a rest ih => exact ih (cor.related s t a start)

theorem trace (cor : Corresponds T A R E) {s : σ} {t : τ} (start : R s t) (stream : List α) :
    List.Forall₂ E (T.trace s stream) (A.trace t stream) := by
  induction stream generalizing s t with
  | nil => exact .nil
  | cons a rest ih =>
      exact List.rel_append (cor.emitted s t a start) (ih (cor.related s t a start))

end Corresponds

end Simulation

end EinkLiteOS.Theory
