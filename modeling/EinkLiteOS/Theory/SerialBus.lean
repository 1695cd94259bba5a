/-
# Theory.SerialBus -- words over a clocked line

A sender drives four lines: a select, a tag, a clock and data.  The receiver sees their
levels, sample after sample.  While it is selected it takes the data line at every rising
edge of the clock, and `n` bits are a word, handed over with the tag; when it is not
selected it drops what it holds.

* A level seen more than once says nothing new (`Stretches.final`, `Stretches.trace`).
* A word sent with the receiver empty is the word it hands over (`trace_word`); one sent
  while it holds bits is cut where the word is full (`receive_over`).
* What is clocked past an unselected receiver is lost (`receive_unselected`).
-/
import EinkLiteOS.Theory.Transducer

namespace EinkLiteOS.Theory.SerialBus

set_option autoImplicit false

/-- The levels of the four lines. -/
structure Lines where
  select : Bool
  tag : Bool
  clock : Bool
  data : Bool
  deriving DecidableEq, Repr

/-- What the receiver keeps: the level the clock had, and the bits of a word begun. -/
structure Receiver where
  clock : Bool
  bits : List Bool
  deriving DecidableEq, Repr

/-- The receiver of words of `n` bits. -/
def receiver (n : Nat) : Transducer Receiver Lines (Bool × List Bool) where
  step s l :=
    if l.select = false then ({ clock := l.clock, bits := [] }, [])
    else if s.clock = false ∧ l.clock = true then
      let bits := s.bits ++ [l.data]
      if bits.length = n then ({ clock := true, bits := [] }, [(l.tag, bits)])
      else ({ clock := true, bits }, [])
    else ({ clock := l.clock, bits := s.bits }, [])

variable {n : Nat}

theorem step_unselected {l : Lines} (off : l.select = false) (s : Receiver) :
    (receiver n).step s l = (⟨l.clock, []⟩, []) := if_pos off

/-- The receiver remembers the level the clock had. -/
theorem step_clock (s : Receiver) (l : Lines) : ((receiver n).step s l).1.clock = l.clock := by
  cases on : l.select with
  | false => rw [step_unselected on]
  | true =>
      simp only [receiver, on]
      split
      · contradiction
      · split
        · rename_i rise
          split <;> exact rise.2.symm
        · rfl

/-- Nothing happens to a selected receiver while the clock stands still. -/
theorem step_still {l : Lines} {s : Receiver} (on : l.select = true) (still : s.clock = l.clock) :
    (receiver n).step s l = (s, []) := by
  obtain ⟨clock, bits⟩ := s
  subst still
  cases high : l.clock <;> simp [receiver, on, high]

theorem step_low {l : Lines} (on : l.select = true) (low : l.clock = false) (s : Receiver) :
    (receiver n).step s l = (⟨false, s.bits⟩, []) := by
  simp [receiver, on, low]

theorem step_rise {l : Lines} (on : l.select = true) (high : l.clock = true) (bits : List Bool) :
    (receiver n).step ⟨false, bits⟩ l =
      if (bits ++ [l.data]).length = n then (⟨true, []⟩, [(l.tag, bits ++ [l.data])])
      else (⟨true, bits ++ [l.data]⟩, []) := by
  simp [receiver, on, high]

/-! ## Levels seen more than once -/

/-- The samples are the levels, each seen at least once before the next. -/
inductive Stretches : List Lines → List Lines → Prop where
  | nil : Stretches [] []
  | next (l : Lines) {samples levels : List Lines} (rest : Stretches samples levels) :
      Stretches (l :: samples) (l :: levels)
  | again (l : Lines) {samples levels : List Lines} (rest : Stretches (l :: samples) levels) :
      Stretches (l :: l :: samples) levels

theorem Stretches.refl (levels : List Lines) : Stretches levels levels := by
  induction levels with
  | nil => exact .nil
  | cons l rest ih => exact .next l ih

/-- The receiver moves on a change of the levels only. -/
theorem step_again (s : Receiver) (l : Lines) :
    (receiver n).step ((receiver n).step s l).1 l = (((receiver n).step s l).1, []) := by
  cases on : l.select with
  | false => rw [step_unselected on, step_unselected on]
  | true => exact step_still on (step_clock s l)

theorem Stretches.run {samples levels : List Lines} (stretched : Stretches samples levels)
    (s : Receiver) :
    (receiver n).final s samples = (receiver n).final s levels ∧
      (receiver n).trace s samples = (receiver n).trace s levels := by
  induction stretched generalizing s with
  | nil => exact ⟨rfl, rfl⟩
  | next l rest ih =>
      obtain ⟨final, trace⟩ := ih ((receiver n).step s l).1
      exact ⟨final, congrArg (_ ++ ·) trace⟩
  | again l rest ih =>
      obtain ⟨final, trace⟩ := ih s
      rw [Transducer.final_cons] at final
      rw [Transducer.trace_cons] at trace
      rw [Transducer.final_cons, Transducer.final_cons, Transducer.trace_cons,
        Transducer.trace_cons, step_again, List.nil_append]
      exact ⟨final, trace⟩

/-! ## Bits -/

/-- The levels of a bit: the clock falls, the data line is set, the clock rises. -/
def bitLevels (l : Lines) (b : Bool) : List Lines :=
  [{ l with clock := false }, { l with clock := false, data := b },
    { l with clock := true, data := b }]

/-- The levels of some bits. -/
def wordLevels (l : Lines) : List Bool → List Lines
  | [] => []
  | b :: rest => bitLevels l b ++ wordLevels { l with clock := true, data := b } rest

theorem wordLevels_append (l : Lines) (front back : List Bool) :
    ∃ l' : Lines, l'.select = l.select ∧ l'.tag = l.tag ∧
      wordLevels l (front ++ back) = wordLevels l front ++ wordLevels l' back := by
  induction front generalizing l with
  | nil => exact ⟨l, rfl, rfl, rfl⟩
  | cons b rest ih =>
      obtain ⟨l', select, tag, split⟩ := ih { l with clock := true, data := b }
      refine ⟨l', select, tag, ?_⟩
      rw [List.cons_append, wordLevels, wordLevels, split, List.append_assoc]

/-- A bit read by a selected receiver. -/
theorem receive_bit {l : Lines} (on : l.select = true) (s : Receiver) (b : Bool) :
    (receiver n).final s (bitLevels l b) =
        ⟨true, if (s.bits ++ [b]).length = n then [] else s.bits ++ [b]⟩ ∧
      (receiver n).trace s (bitLevels l b) =
        if (s.bits ++ [b]).length = n then [(l.tag, s.bits ++ [b])] else [] := by
  have low : (receiver n).step s { l with clock := false } = (⟨false, s.bits⟩, []) :=
    step_low (l := { l with clock := false }) on rfl s
  have set : (receiver n).step ⟨false, s.bits⟩ { l with clock := false, data := b } =
      (⟨false, s.bits⟩, []) := step_low (l := { l with clock := false, data := b }) on rfl _
  have rise := step_rise (n := n) (l := { l with clock := true, data := b }) on rfl s.bits
  simp only [bitLevels, Transducer.final_cons, Transducer.final_nil, Transducer.trace_cons,
    Transducer.trace_nil, low, set, rise]
  split <;> exact ⟨rfl, rfl⟩

/-- Bits that do not fill the word are kept. -/
theorem receive_bits {l : Lines} (on : l.select = true) (s : Receiver) (bits : List Bool)
    (room : s.bits.length + bits.length < n) :
    ((receiver n).final s (wordLevels l bits)).bits = s.bits ++ bits ∧
      (receiver n).trace s (wordLevels l bits) = [] := by
  induction bits generalizing l s with
  | nil => exact ⟨(List.append_nil _).symm, rfl⟩
  | cons b rest ih =>
      rw [List.length_cons] at room
      obtain ⟨final, trace⟩ := receive_bit (n := n) on s b
      have notFull : ¬ (s.bits ++ [b]).length = n := by
        rw [List.length_append, List.length_singleton]
        omega
      rw [if_neg notFull] at final trace
      rw [wordLevels, Transducer.final_append, Transducer.trace_append, final, trace]
      have later := ih (l := { l with clock := true, data := b }) on ⟨true, s.bits ++ [b]⟩ (by
        rw [List.length_append, List.length_singleton]
        omega)
      rw [List.append_assoc, List.singleton_append] at later
      exact later

/-- **The bits that fill a word hand it over**, and leave the receiver empty. -/
theorem trace_word {l : Lines} (on : l.select = true) (s : Receiver) {bits : List Bool}
    (some : bits ≠ []) (full : s.bits.length + bits.length = n) :
    ((receiver n).final s (wordLevels l bits)).bits = [] ∧
      (receiver n).trace s (wordLevels l bits) = [(l.tag, s.bits ++ bits)] := by
  have split := List.dropLast_append_getLast some
  have length := congrArg List.length split
  rw [List.length_append, List.length_singleton] at length
  obtain ⟨l', select, tag, levels⟩ := wordLevels_append l bits.dropLast [bits.getLast some]
  obtain ⟨kept, silent⟩ := receive_bits on s bits.dropLast (n := n) (by omega)
  obtain ⟨final, trace⟩ := receive_bit (n := n) (select.trans on)
    ((receiver n).final s (wordLevels l bits.dropLast)) (bits.getLast some)
  have filled : (s.bits ++ bits.dropLast ++ [bits.getLast some]).length = n := by
    rw [List.append_assoc, split, List.length_append, full]
  rw [kept, if_pos filled] at final trace
  rw [← split, levels, Transducer.final_append, Transducer.trace_append, silent, wordLevels,
    wordLevels, List.append_nil, final, trace, tag, List.append_assoc, split]
  exact ⟨rfl, rfl⟩

/-- A whole word sent while the receiver holds bits: what it hands over begins with these, and
it holds as many of the new ones. -/
theorem receive_over {l : Lines} (on : l.select = true) (s : Receiver) {bits : List Bool}
    (whole : bits.length = n) (begun : s.bits.length < n) :
    ((receiver n).final s (wordLevels l bits)).bits = bits.drop (n - s.bits.length) ∧
      (receiver n).trace s (wordLevels l bits) =
        [(l.tag, s.bits ++ bits.take (n - s.bits.length))] := by
  have front : (bits.take (n - s.bits.length)).length = n - s.bits.length := by
    rw [List.length_take]
    omega
  have some : bits.take (n - s.bits.length) ≠ [] := by
    intro none
    rw [none, List.length_nil] at front
    omega
  obtain ⟨l', select, tag, levels⟩ := wordLevels_append l (bits.take (n - s.bits.length))
    (bits.drop (n - s.bits.length))
  rw [List.take_append_drop] at levels
  obtain ⟨empty, trace⟩ := trace_word on s some (by omega) (n := n)
  rw [levels, Transducer.final_append, Transducer.trace_append, trace]
  generalize (receiver n).final s (wordLevels l (bits.take (n - s.bits.length))) = s' at empty
  by_cases held : s.bits.length = 0
  · -- nothing was held, and the word is over
    have none : bits.drop (n - s.bits.length) = [] :=
      List.drop_eq_nil_of_le (by omega)
    rw [none, wordLevels]
    exact ⟨empty, rfl⟩
  · have short : s'.bits.length + (bits.drop (n - s.bits.length)).length < n := by
      rw [empty, List.length_nil, List.length_drop]
      omega
    obtain ⟨kept, silent⟩ := receive_bits (select.trans on) s' _ short
    rw [kept, silent, empty]
    exact ⟨rfl, rfl⟩

/-- The beginning of a word, cut off anywhere before its last rising edge. -/
theorem receive_prefix {l : Lines} (on : l.select = true) (s : Receiver) {bits : List Bool}
    (room : s.bits.length + bits.length ≤ n) {k : Nat} (cut : k < 3 * bits.length) :
    ((receiver n).final s ((wordLevels l bits).take k)).bits = s.bits ++ bits.take (k / 3) ∧
      (receiver n).trace s ((wordLevels l bits).take k) = [] := by
  induction bits generalizing l s k with
  | nil => exact absurd cut (Nat.not_lt_zero k)
  | cons b rest ih =>
      rw [List.length_cons] at room cut
      match k with
      | 0 => exact ⟨(List.append_nil _).symm, rfl⟩
      | 1 => simp [wordLevels, bitLevels, receiver, on]
      | 2 => simp [wordLevels, bitLevels, receiver, on]
      | k + 3 =>
          obtain ⟨final, trace⟩ := receive_bit (n := n) on s b
          have notFull : ¬ (s.bits ++ [b]).length = n := by
            rw [List.length_append, List.length_singleton]
            omega
          rw [if_neg notFull] at final trace
          have split : (wordLevels l (b :: rest)).take (k + 3) = bitLevels l b ++
              (wordLevels { l with clock := true, data := b } rest).take k := rfl
          have quotient : (k + 3) / 3 = k / 3 + 1 := Nat.add_div_right k (by decide)
          rw [split, Transducer.final_append, Transducer.trace_append, final, trace, quotient,
            List.take_succ_cons]
          have later := ih (l := { l with clock := true, data := b }) (k := k) on
            ⟨true, s.bits ++ [b]⟩ (by
              rw [List.length_append, List.length_singleton]
              omega) (by omega)
          rw [List.append_assoc, List.singleton_append] at later
          exact later

/-- What goes past an unselected receiver is lost. -/
theorem receive_unselected {levels : List Lines} (off : ∀ l ∈ levels, l.select = false)
    (s : Receiver) :
    (receiver n).trace s levels = [] ∧
      (levels ≠ [] → ((receiver n).final s levels).bits = []) := by
  induction levels generalizing s with
  | nil => exact ⟨rfl, fun some => absurd rfl some⟩
  | cons l rest ih =>
      obtain ⟨here, later⟩ := List.forall_mem_cons.mp off
      obtain ⟨silent, empty⟩ := ih later ⟨l.clock, []⟩
      rw [Transducer.trace_cons, Transducer.final_cons, step_unselected here, silent]
      refine ⟨rfl, fun _ => ?_⟩
      cases rest with
      | nil => rfl
      | cons next rest => exact empty (List.cons_ne_nil _ _)

end EinkLiteOS.Theory.SerialBus
