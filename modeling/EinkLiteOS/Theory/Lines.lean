/-
# Theory.Lines -- a stream cut into lines of bounded length

The abstract line reader: it holds the symbols of the unfinished line, ends the line at
the `ending`, and gives up on a line for which `limit` symbols are held already.  Its
events carry the symbols they end with, so that the stream is the events' symbols one
after another and the unfinished line behind them (`trace_tiles`), and every event looks
as it should (`trace_wellFormed`).
-/
import EinkLiteOS.Theory.Transducer
import Mathlib.Data.List.Induction

namespace EinkLiteOS.Theory

set_option autoImplicit false

universe u v

/-- How a line ends, with all its symbols. -/
inductive LineEvent (α : Type u) where
  | line (symbols : List α)
  | overflow (symbols : List α)
  deriving DecidableEq, Repr

namespace LineEvent

variable {α : Type u}

def symbols : LineEvent α → List α
  | .line symbols => symbols
  | .overflow symbols => symbols

/-- A line is fewer than `limit` symbols and the ending; on overflow there are `limit`
symbols without an ending and one more, whichever it is. -/
def WellFormed (ending : α) (limit : Nat) : LineEvent α → Prop
  | .line symbols => ∃ front, symbols = front ++ [ending] ∧ ending ∉ front ∧ front.length < limit
  | .overflow symbols => ∃ front a, symbols = front ++ [a] ∧ ending ∉ front ∧ front.length = limit

end LineEvent

/-- The line reader; its state is the unfinished line. -/
def lineReader {α : Type u} [DecidableEq α] (ending : α) (limit : Nat) :
    Transducer (List α) α (LineEvent α) where
  step held a :=
    if held.length < limit then
      if a = ending then ([], [.line (held ++ [a])]) else (held ++ [a], [])
    else ([], [.overflow (held ++ [a])])

namespace Lines

variable {α : Type u} [DecidableEq α] {ending : α} {limit : Nat} {held : List α}

theorem step_line (room : held.length < limit) :
    (lineReader ending limit).step held ending = ([], [.line (held ++ [ending])]) := by
  simp only [lineReader, if_pos room, if_true]

theorem step_more {a : α} (room : held.length < limit) (more : a ≠ ending) :
    (lineReader ending limit).step held a = (held ++ [a], []) := by
  simp only [lineReader, if_pos room, if_neg more]

theorem step_overflow {a : α} (full : ¬ held.length < limit) :
    (lineReader ending limit).step held a = ([], [.overflow (held ++ [a])]) := by
  simp only [lineReader, if_neg full]

/-- One step keeps all symbols, in the event it emits or in the line. -/
theorem step_tiles (held : List α) (a : α) :
    ((lineReader ending limit).step held a).2.flatMap LineEvent.symbols ++
      ((lineReader ending limit).step held a).1 = held ++ [a] := by
  by_cases room : held.length < limit
  · by_cases ends : a = ending
    · subst ends
      rw [step_line room]
      simp only [List.flatMap_cons, List.flatMap_nil, LineEvent.symbols, List.append_nil]
    · rw [step_more room ends]
      rfl
  · rw [step_overflow room]
    simp only [List.flatMap_cons, List.flatMap_nil, LineEvent.symbols, List.append_nil]

/-- **The events tile the stream**: their symbols in order, and the unfinished line. -/
theorem trace_tiles (held stream : List α) :
    ((lineReader ending limit).trace held stream).flatMap LineEvent.symbols ++
      (lineReader ending limit).final held stream = held ++ stream := by
  induction stream generalizing held with
  | nil => simp only [Transducer.trace_nil, List.flatMap_nil, Transducer.final_nil,
      List.nil_append, List.append_nil]
  | cons a rest ih =>
      rw [Transducer.trace_cons, Transducer.final_cons, List.flatMap_append, List.append_assoc,
        ih, ← List.append_assoc, step_tiles, List.append_assoc, List.singleton_append]

variable (ending limit) in
/-- An unfinished line: no ending in it, and no longer than the limit. -/
def Unfinished (held : List α) : Prop := ending ∉ held ∧ held.length ≤ limit

theorem step_wellFormed (unfinished : Unfinished ending limit held) (a : α) :
    Unfinished ending limit ((lineReader ending limit).step held a).1 ∧
      ∀ event ∈ ((lineReader ending limit).step held a).2, event.WellFormed ending limit := by
  obtain ⟨noEnding, bounded⟩ := unfinished
  have empty : Unfinished ending limit ([] : List α) := ⟨List.not_mem_nil, Nat.zero_le limit⟩
  by_cases room : held.length < limit
  · by_cases ends : a = ending
    · subst ends
      rw [step_line room]
      refine ⟨empty, ?_⟩
      intro event member
      obtain rfl := List.mem_singleton.mp member
      exact ⟨held, rfl, noEnding, room⟩
    · rw [step_more room ends]
      refine ⟨⟨?_, ?_⟩, ?_⟩
      · intro member
        rcases List.mem_append.mp member with before | now
        · exact noEnding before
        · exact ends (List.mem_singleton.mp now).symm
      · rw [List.length_append, List.length_singleton]
        exact room
      · intro event member
        cases member
  · rw [step_overflow room]
    refine ⟨empty, ?_⟩
    intro event member
    obtain rfl := List.mem_singleton.mp member
    exact ⟨held, a, rfl, noEnding, by omega⟩

/-- **Every event of a run is well formed**, and so is the line that is left. -/
theorem trace_wellFormed (unfinished : Unfinished ending limit held) (stream : List α) :
    Unfinished ending limit ((lineReader ending limit).final held stream) ∧
      ∀ event ∈ (lineReader ending limit).trace held stream, event.WellFormed ending limit := by
  induction stream generalizing held with
  | nil =>
      refine ⟨unfinished, ?_⟩
      intro event member
      cases member
  | cons a rest ih =>
      obtain ⟨kept, now⟩ := step_wellFormed unfinished a
      obtain ⟨left, later⟩ := ih kept
      refine ⟨left, ?_⟩
      intro event member
      rcases List.mem_append.mp member with first | others
      · exact now event first
      · exact later event others

/-! ### One line -/

/-- Symbols of one line are held, as long as there is room. -/
theorem run_more {stream : List α} (noEnding : ending ∉ stream)
    (room : held.length + stream.length ≤ limit) :
    (lineReader ending limit).final held stream = held ++ stream ∧
      (lineReader ending limit).trace held stream = [] := by
  induction stream generalizing held with
  | nil => exact ⟨(List.append_nil held).symm, rfl⟩
  | cons a rest ih =>
      rw [List.length_cons] at room
      have more : a ≠ ending := fun same => noEnding (same ▸ List.mem_cons_self)
      rw [Transducer.final_cons, Transducer.trace_cons, step_more (by omega) more]
      have room' : (held ++ [a]).length + rest.length ≤ limit := by
        rw [List.length_append, List.length_singleton]
        omega
      obtain ⟨kept, silent⟩ := ih (fun later => noEnding (List.mem_cons_of_mem a later)) room'
      refine ⟨?_, silent⟩
      rw [kept, List.append_assoc, List.singleton_append]

/-- The rest of a line that fits, and its ending. -/
theorem trace_line {front : List α} (noEnding : ending ∉ front)
    (room : held.length + front.length < limit) :
    (lineReader ending limit).trace held (front ++ [ending]) =
      [.line (held ++ front ++ [ending])] := by
  obtain ⟨kept, silent⟩ := run_more noEnding (Nat.le_of_lt room)
  have fits : (held ++ front).length < limit := by rwa [List.length_append]
  rw [Transducer.trace_append, silent, kept, Transducer.trace_cons, step_line fits]
  rfl

/-- One symbol more than there is room for. -/
theorem trace_overflow {front : List α} {a : α} (noEnding : ending ∉ front)
    (full : held.length + front.length = limit) :
    (lineReader ending limit).trace held (front ++ [a]) = [.overflow (held ++ front ++ [a])] := by
  obtain ⟨kept, silent⟩ := run_more noEnding (Nat.le_of_eq full)
  have filled : ¬ (held ++ front).length < limit := by
    rw [List.length_append]
    omega
  rw [Transducer.trace_append, silent, kept, Transducer.trace_cons, step_overflow filled]
  rfl

end Lines

/-! ## The last event that says something -/

/-- Values that are overwritten as the events come: the last one stays. -/
theorem foldl_getD_eq_getLast {α : Type u} {β : Type v} (value : α → Option β) (events : List α)
    (start : β) :
    events.foldl (fun current event => (value event).getD current) start =
      ((events.filterMap value).getLast?).getD start := by
  induction events using List.reverseRecOn with
  | nil => rfl
  | append_singleton events event ih =>
      rw [List.foldl_append, List.foldl_cons, List.foldl_nil, ih, List.filterMap_append]
      cases said : value event with
      | none => simp [said]
      | some new => simp [said]

end EinkLiteOS.Theory
