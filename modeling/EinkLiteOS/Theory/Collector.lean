/-
# Theory.Collector -- a receiver that collects symbols until a verdict

The abstract receiver of a framed stream.  It keeps the symbols of the frame in
progress and asks a `verdict` about them after every symbol: go on collecting,
throw them away, or hand them over as one accepted word.  Nothing but the
collected symbols is state, so what it accepts is a question about words:

* `mem_emissions_accepted`: an emitted word has the verdict `accept` and is what
  the stream ends with at that moment;
* `emissions_disjoint`: the stretches of stream accepted at two emissions never
  overlap;
* `collect_word`: a word whose proper prefixes are all `more` is handed over
  exactly once, on its last symbol, and the receiver is idle again;
* `collect_rejected`: one that is rejected on its last symbol leaves it idle, and
  nothing is handed over;
* `returns`: with bounded words the receiver is idle again after boundedly many
  symbols, whatever they are.
-/
import EinkLiteOS.Theory.Transducer

namespace EinkLiteOS.Theory

set_option autoImplicit false

universe u

/-- What the receiver does with the symbols it holds. -/
inductive Verdict where
  | more
  | reject
  | accept
  deriving DecidableEq, Repr

/-- The receiver that collects symbols until `verdict` rejects or accepts them. -/
def collector {α : Type u} (verdict : List α → Verdict) : Transducer (List α) α (List α) where
  step held a :=
    match verdict (held ++ [a]) with
    | .more => (held ++ [a], [])
    | .reject => ([], [])
    | .accept => ([], [held ++ [a]])

namespace Collector

variable {α : Type u} {verdict : List α → Verdict}

theorem step_more {held : List α} {a : α} (h : verdict (held ++ [a]) = .more) :
    (collector verdict).step held a = (held ++ [a], []) := by
  simp [collector, h]

theorem step_reject {held : List α} {a : α} (h : verdict (held ++ [a]) = .reject) :
    (collector verdict).step held a = ([], []) := by
  simp [collector, h]

theorem step_accept {held : List α} {a : α} (h : verdict (held ++ [a]) = .accept) :
    (collector verdict).step held a = ([], [held ++ [a]]) := by
  simp [collector, h]

/-! ## What is emitted -/

theorem mem_emissions_accepted {k : Nat} {held stream : List α} {e : Nat × List α}
    (member : e ∈ (collector verdict).emissions k held stream) :
    verdict e.2 = .accept ∧ k < e.1 ∧ e.2 <:+ held ++ stream.take (e.1 - k) := by
  induction stream generalizing k held with
  | nil => simp at member
  | cons a rest ih =>
      rw [Transducer.emissions_cons, List.mem_append] at member
      -- after any verdict the symbols still held are a suffix of those read
      have later : ∀ {kept : List α}, kept <:+ held ++ [a] →
          e ∈ (collector verdict).emissions (k + 1) kept rest →
          verdict e.2 = .accept ∧ k < e.1 ∧ e.2 <:+ held ++ (a :: rest).take (e.1 - k) := by
        intro kept suffix inRest
        obtain ⟨accepted, after, ends⟩ := ih inRest
        refine ⟨accepted, by omega, ends.trans ?_⟩
        obtain ⟨lost, split⟩ := suffix
        have position : e.1 - k = (e.1 - (k + 1)) + 1 := by omega
        refine ⟨lost, ?_⟩
        rw [position, List.take_succ_cons, ← List.append_assoc, split]
        simp
      cases judged : verdict (held ++ [a]) with
      | more =>
          rw [step_more judged] at member
          rcases member with now | next
          · simp at now
          · exact later (List.suffix_refl _) next
      | reject =>
          rw [step_reject judged] at member
          rcases member with now | next
          · simp at now
          · exact later List.nil_suffix next
      | accept =>
          rw [step_accept judged] at member
          rcases member with now | next
          · simp only [List.map_cons, List.map_nil, List.mem_singleton] at now
            subst now
            refine ⟨judged, by omega, ?_⟩
            have one : k + 1 - k = 1 := Nat.add_sub_cancel_left k 1
            exact ⟨[], by simp only [one, List.take_succ_cons, List.take_zero, List.nil_append]⟩
          · exact later List.nil_suffix next

/-- An emitted word is no longer than what was held before and read since. -/
theorem emissions_length {k : Nat} {held stream : List α} {e : Nat × List α}
    (member : e ∈ (collector verdict).emissions k held stream) :
    e.2.length + k ≤ held.length + e.1 := by
  obtain ⟨-, after, ends⟩ := mem_emissions_accepted member
  have := ends.length_le
  rw [List.length_append, List.length_take] at this
  omega

/-- An emitted word is all that was held and read, or it was begun after the first
symbol. -/
theorem emissions_whole {k : Nat} {held stream : List α} {e : Nat × List α}
    (member : e ∈ (collector verdict).emissions k held stream) :
    e.2 = held ++ stream.take (e.1 - k) ∨ e.2.length + k < e.1 := by
  induction stream generalizing k held with
  | nil => cases member
  | cons a rest ih =>
      rw [Transducer.emissions_cons, List.mem_append] at member
      have begun : e ∈ (collector verdict).emissions (k + 1) [] rest →
          e.2.length + k < e.1 := by
        intro later
        have := emissions_length later
        rw [List.length_nil] at this
        omega
      cases judged : verdict (held ++ [a]) with
      | more =>
          rw [step_more judged] at member
          rcases member with now | later
          · cases now
          · rcases ih later with whole | short
            · obtain ⟨-, after, -⟩ := mem_emissions_accepted later
              have position : e.1 - k = (e.1 - (k + 1)) + 1 := by omega
              left
              rw [position, List.take_succ_cons, whole, List.append_assoc, List.singleton_append]
            · right
              omega
      | reject =>
          rw [step_reject judged] at member
          rcases member with now | later
          · cases now
          · exact Or.inr (begun later)
      | accept =>
          rw [step_accept judged] at member
          rcases member with now | later
          · obtain rfl := List.mem_singleton.mp now
            have one : k + 1 - k = 1 := Nat.add_sub_cancel_left k 1
            left
            rw [one, List.take_succ_cons, List.take_zero]
          · exact Or.inr (begun later)

variable (verdict) in
/-- **The stretches of stream accepted at two emissions never overlap.** -/
theorem emissions_disjoint (k : Nat) (held stream : List α) :
    ((collector verdict).emissions k held stream).Pairwise
      fun earlier later => earlier.1 + later.2.length ≤ later.1 := by
  induction stream generalizing k held with
  | nil => exact List.Pairwise.nil
  | cons a rest ih =>
      rw [Transducer.emissions_cons]
      cases judged : verdict (held ++ [a]) with
      | more => rw [step_more judged]; exact ih _ _
      | reject => rw [step_reject judged]; exact ih _ _
      | accept =>
          rw [step_accept judged]
          refine List.Pairwise.cons (fun later member => ?_) (ih _ _)
          have := emissions_length member
          simp only [List.length_nil] at this
          show k + 1 + later.2.length ≤ later.1
          omega

/-! ## Collecting one word -/

/-- Symbols whose every extension of what is held is `more` are all kept. -/
theorem collect_more (k : Nat) (held stream : List α)
    (growing : ∀ n, held.length < n → n ≤ (held ++ stream).length →
      verdict ((held ++ stream).take n) = .more) :
    (collector verdict).final held stream = held ++ stream ∧
      (collector verdict).emissions k held stream = [] := by
  induction stream generalizing k held with
  | nil => simp
  | cons a rest ih =>
      have regroup : held ++ a :: rest = (held ++ [a]) ++ rest := by simp
      have judged : verdict (held ++ [a]) = .more := by
        have := growing (held.length + 1) (by omega) (by simp)
        rwa [regroup, List.take_append_of_le_length (by simp),
          List.take_of_length_le (by simp)] at this
      obtain ⟨kept, silent⟩ := ih (k + 1) (held ++ [a]) (fun n above below => by
        rw [List.length_append, List.length_singleton] at above
        rw [← regroup] at below ⊢
        exact growing n (by omega) below)
      rw [Transducer.final_cons, Transducer.emissions_cons, step_more judged]
      exact ⟨by rw [kept, regroup], by rw [silent]; rfl⟩

/-- A word none of whose proper prefixes is judged is kept up to its last symbol. -/
theorem collect_dropLast (k : Nat) {word : List α}
    (growing : ∀ n, 0 < n → n < word.length → verdict (word.take n) = .more) :
    (collector verdict).final [] word.dropLast = word.dropLast ∧
      (collector verdict).emissions k [] word.dropLast = [] := by
  obtain ⟨kept, silent⟩ : (collector verdict).final [] word.dropLast = [] ++ word.dropLast ∧
      (collector verdict).emissions k [] word.dropLast = [] :=
    collect_more k [] word.dropLast (fun n above below => by
      rw [List.nil_append] at below ⊢
      rw [List.length_dropLast] at below
      rw [List.length_nil] at above
      rw [List.dropLast_eq_take, List.take_take, Nat.min_eq_left below]
      exact growing n above (by omega))
  exact ⟨kept, silent⟩

/-- **A word is handed over once, on its last symbol**, when none of its proper
prefixes is judged before. -/
theorem collect_word (k : Nat) {word : List α} (nonempty : word ≠ [])
    (growing : ∀ n, 0 < n → n < word.length → verdict (word.take n) = .more)
    (accepted : verdict word = .accept) :
    (collector verdict).final [] word = [] ∧
      (collector verdict).emissions k [] word = [(k + word.length, word)] := by
  have split := List.dropLast_append_getLast nonempty
  have length : word.dropLast.length + 1 = word.length := by
    rw [List.length_dropLast]
    have := List.length_pos_of_ne_nil nonempty
    omega
  obtain ⟨kept, silent⟩ := collect_dropLast k growing
  have judged : verdict (word.dropLast ++ [word.getLast nonempty]) = .accept := by
    rw [split]; exact accepted
  constructor
  · rw [← split, Transducer.final_append, kept, Transducer.final_cons, step_accept judged]
    rfl
  · conv => lhs; rw [← split]
    rw [Transducer.emissions_append, silent, kept, Transducer.emissions_cons,
      step_accept judged, split]
    simp only [List.nil_append, List.map_cons, List.map_nil, Transducer.emissions_nil,
      List.append_nil, Nat.add_assoc, length]

/-- **A word that is rejected on its last symbol** leaves nothing behind: the receiver
is idle and has handed nothing over. -/
theorem collect_rejected (k : Nat) {word : List α} (nonempty : word ≠ [])
    (growing : ∀ n, 0 < n → n < word.length → verdict (word.take n) = .more)
    (rejected : verdict word = .reject) :
    (collector verdict).final [] word = [] ∧ (collector verdict).emissions k [] word = [] := by
  have split := List.dropLast_append_getLast nonempty
  obtain ⟨kept, silent⟩ := collect_dropLast k growing
  have judged : verdict (word.dropLast ++ [word.getLast nonempty]) = .reject := by
    rw [split]; exact rejected
  constructor
  · rw [← split, Transducer.final_append, kept, Transducer.final_cons, step_reject judged]
    rfl
  · rw [← split, Transducer.emissions_append, silent, kept, Transducer.emissions_cons,
      step_reject judged]
    rfl

/-! ## Bounded return -/

/-- What the receiver holds: nothing, or symbols judged `more`. -/
def Held (verdict : List α → Verdict) (held : List α) : Prop := held = [] ∨ verdict held = .more

theorem held_step {held : List α} (a : α) : Held verdict ((collector verdict).step held a).1 := by
  cases judged : verdict (held ++ [a]) with
  | more => rw [step_more judged]; exact Or.inr judged
  | reject => rw [step_reject judged]; exact Or.inl rfl
  | accept => rw [step_accept judged]; exact Or.inl rfl

theorem held_final {held : List α} (start : Held verdict held) (stream : List α) :
    Held verdict ((collector verdict).final held stream) :=
  Transducer.final_invariant _ (fun _ a _ => held_step a) start stream

/-- **Bounded return to idle.**  If words longer than `bound` are never `more`, a
receiver holding `held` is idle again before it has held `bound + 1` symbols. -/
theorem returns {bound : Nat} (bounded : ∀ w, verdict w = .more → w.length ≤ bound)
    (held stream : List α) (nonempty : held ≠ []) (within : held.length ≤ bound)
    (enough : bound + 1 ≤ held.length + stream.length) :
    ∃ n, 0 < n ∧ n + held.length ≤ bound + 1 ∧
      (collector verdict).final held (stream.take n) = [] := by
  induction stream generalizing held with
  | nil => simp at enough; omega
  | cons a rest ih =>
      cases judged : verdict (held ++ [a]) with
      | more =>
          have length := bounded _ judged
          rw [List.length_append, List.length_singleton] at length
          obtain ⟨n, -, early, idle⟩ := ih (held ++ [a]) (by simp) (by simpa using length)
            (by rw [List.length_append, List.length_singleton]; simp at enough; omega)
          rw [List.length_append, List.length_singleton] at early
          refine ⟨n + 1, by omega, by omega, ?_⟩
          rw [List.take_succ_cons, Transducer.final_cons, step_more judged]
          exact idle
      | reject =>
          refine ⟨1, by omega, by omega, ?_⟩
          rw [List.take_succ_cons, Transducer.final_cons, step_reject judged]
          rfl
      | accept =>
          refine ⟨1, by omega, by omega, ?_⟩
          rw [List.take_succ_cons, Transducer.final_cons, step_accept judged]
          rfl

end Collector

end EinkLiteOS.Theory
