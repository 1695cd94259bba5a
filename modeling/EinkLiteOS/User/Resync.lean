/-
# User.Resync -- finding the next frame in a noisy stream

A stream of frames with noise before, between and after them.  Noise is any byte
string without the two-byte header in it, so a receiver that looked for the
header at every position would announce every frame.  `recDataProcessing` does
not: a byte that fails as the second header byte is dropped without being tried
as the first one (`RECV_STATE_HEADER2` falls back to `RECV_STATE_HEADER1`), so
behind noise that ends in an odd run of `A5` the real header is consumed as
`A5 A5` and `5A`.

`noise_final` is the state such noise leaves; `resynchronises_iff` says exactly
which streams are received: those in which no frame is preceded by noise that
ends in an odd run of `A5`.
-/
import EinkLiteOS.User.Reception
import Mathlib.Algebra.Group.Nat.Even
import Mathlib.Data.List.Forall2
import Mathlib.Data.List.Induction

namespace EinkLiteOS.User

open EinkLiteOS.Theory

set_option autoImplicit false

/-- Bytes between frames: anything without the two-byte header in it. -/
structure Noise where
  bytes : List UInt8
  headerFree : ¬ [frameHeader1, frameHeader2] <:+: bytes

/-- How many `FRAME_HEADER1` bytes a byte string ends with. -/
def trailingHeader1 (bytes : List UInt8) : Nat :=
  (bytes.reverse.takeWhile (· == frameHeader1)).length

theorem trailingHeader1_snoc (bytes : List UInt8) (b : UInt8) :
    trailingHeader1 (bytes ++ [b]) =
      if b = frameHeader1 then trailingHeader1 bytes + 1 else 0 := by
  simp only [trailingHeader1, List.reverse_append, List.reverse_singleton, List.singleton_append,
    List.takeWhile_cons, beq_iff_eq]
  split <;> rfl

/-- A byte string that ends in `A5` has it as its last byte. -/
theorem eq_snoc_of_trailing {bytes : List UInt8} (positive : 0 < trailingHeader1 bytes) :
    ∃ front, bytes = front ++ [frameHeader1] := by
  induction bytes using List.reverseRecOn with
  | nil => simp [trailingHeader1] at positive
  | append_singleton front b _ =>
      rw [trailingHeader1_snoc] at positive
      split at positive
      · rename_i same
        exact ⟨front, by rw [same]⟩
      · omega

/-- Frames, each followed by noise, behind a first noise. -/
def streamOf (first : Noise) (segments : List (Frame × Noise)) : List UInt8 :=
  first.bytes ++ segments.flatMap fun s => s.1.bytes ++ s.2.bytes

/-- Each frame with the number of bytes up to its last one. -/
def frameEnds : Nat → List (Frame × Noise) → List (Nat × Frame)
  | _, [] => []
  | k, (f, g) :: rest =>
      (k + f.bytes.length, f) :: frameEnds (k + f.bytes.length + g.bytes.length) rest

/-- The receiver announces every frame of the stream and nothing else: one event
for each frame, on its last byte, with the frame in `g_frame_data`. -/
def Resynchronises (c : Recv) (first : Noise) (segments : List (Frame × Noise)) : Prop :=
  List.Forall₂ (fun e p => e.1 = p.1 ∧ e.2.Holds p.2)
    (receiver.emissions 0 c (streamOf first segments)) (frameEnds first.bytes.length segments)

/-- No frame is preceded by noise that ends in an odd run of `A5`. -/
def EvenGaps (first : Noise) (segments : List (Frame × Noise)) : Prop :=
  ∀ g ∈ (first :: segments.map Prod.snd).dropLast, Even (trailingHeader1 g.bytes)

/-! ## The header search -/

theorem search_idle (b : UInt8) : (collector frameVerdict).step [] b =
    (if b = frameHeader1 then [frameHeader1] else [], []) := by
  by_cases first : b = frameHeader1 <;> simp [collector, frameVerdict, first]

theorem search_second {b : UInt8} (other : b ≠ frameHeader2) :
    (collector frameVerdict).step [frameHeader1] b = ([], []) := by
  simp [collector, frameVerdict, other]

/-- **What noise leaves behind**: nothing is announced, and the receiver waits for
the second header byte exactly when the noise ends in an odd run of `A5`. -/
theorem noise_final (k : Nat) {bytes : List UInt8}
    (headerFree : ¬ [frameHeader1, frameHeader2] <:+: bytes) :
    (collector frameVerdict).final [] bytes =
        (if Even (trailingHeader1 bytes) then [] else [frameHeader1]) ∧
      (collector frameVerdict).emissions k [] bytes = [] := by
  induction bytes using List.reverseRecOn with
  | nil => exact ⟨by simp [trailingHeader1], rfl⟩
  | append_singleton front b ih =>
      obtain ⟨reached, silent⟩ := ih fun inside =>
        headerFree (inside.trans (List.prefix_append _ _).isInfix)
      rw [Transducer.final_append, Transducer.emissions_append, reached, silent,
        trailingHeader1_snoc]
      by_cases even : Even (trailingHeader1 front)
      · rw [if_pos even, Transducer.final_cons, Transducer.emissions_cons, search_idle]
        by_cases first : b = frameHeader1 <;>
          simp [first, Nat.even_add_one, even]
      · have positive : 0 < trailingHeader1 front :=
          Nat.pos_of_ne_zero fun zero => even (zero ▸ Even.zero)
        have other : b ≠ frameHeader2 := by
          rintro rfl
          obtain ⟨before, rfl⟩ := eq_snoc_of_trailing positive
          exact headerFree ⟨before, [], by simp⟩
        rw [if_neg even, Transducer.final_cons, Transducer.emissions_cons, search_second other]
        by_cases first : b = frameHeader1 <;>
          simp [first, Nat.even_add_one, even]

/-! ## Which streams are received -/

/-- A frame read from idle is announced on its last byte. -/
theorem frame_collected (k : Nat) (f : Frame) :
    (collector frameVerdict).final [] f.bytes = [] ∧
      (collector frameVerdict).emissions k [] f.bytes = [(k + f.bytes.length, f.bytes)] :=
  Collector.collect_word k f.bytes_ne_nil (fun _ => frameVerdict_take f) (frameVerdict_bytes f)

/-- **The lost header.**  Read while the receiver waits for the second header byte,
a frame is not announced on its last byte, whatever follows it. -/
theorem frame_missed (k : Nat) (f : Frame) (rest : List UInt8) :
    (k + f.bytes.length, f.bytes) ∉
      (collector frameVerdict).emissions k [frameHeader1] (f.bytes ++ rest) := by
  intro member
  have lost : (collector frameVerdict).step [frameHeader1] frameHeader1 = ([], []) :=
    search_second (by decide)
  have dropped : (collector frameVerdict).step [] frameHeader2 = ([], []) := by
    rw [search_idle, if_neg (by decide)]
  rw [Frame.bytes, List.cons_append, List.cons_append, Transducer.emissions_cons, lost,
    Transducer.emissions_cons, dropped] at member
  have short := Collector.emissions_length member
  simp only [List.length_cons, List.length_nil] at short
  omega

theorem evenGaps_cons (first : Noise) (f : Frame) (g : Noise) (rest : List (Frame × Noise)) :
    EvenGaps first ((f, g) :: rest) ↔ Even (trailingHeader1 first.bytes) ∧ EvenGaps g rest := by
  simp only [EvenGaps, List.map_cons, List.dropLast_cons_cons, List.forall_mem_cons]

/-- The abstract receiver announces exactly the frames of a stream if and only if
its gaps are even. -/
theorem collected_iff (k : Nat) (first : Noise) (segments : List (Frame × Noise)) :
    (collector frameVerdict).emissions k [] (streamOf first segments) =
        (frameEnds (k + first.bytes.length) segments).map (fun p => (p.1, p.2.bytes)) ↔
      EvenGaps first segments := by
  induction segments generalizing k first with
  | nil =>
      obtain ⟨-, silent⟩ := noise_final k first.headerFree
      simp [streamOf, silent, frameEnds, EvenGaps]
  | cons segment rest ih =>
      obtain ⟨f, g⟩ := segment
      obtain ⟨reached, silent⟩ := noise_final k first.headerFree
      have regroup : streamOf first ((f, g) :: rest) =
          first.bytes ++ (f.bytes ++ streamOf g rest) := by
        simp [streamOf]
      rw [evenGaps_cons, regroup, Transducer.emissions_append, silent, List.nil_append, reached,
        frameEnds, List.map_cons]
      by_cases even : Even (trailingHeader1 first.bytes)
      · obtain ⟨idle, once⟩ := frame_collected (k + first.bytes.length) f
        rw [if_pos even, Transducer.emissions_append, once, idle, List.singleton_append,
          List.cons.injEq, ih]
        simp [even]
      · rw [if_neg even]
        refine ⟨fun same => ?_, fun both => absurd both.1 even⟩
        exact absurd (same ▸ List.mem_cons_self) (frame_missed _ f (streamOf g rest))

/-- A buffer that is idle, whatever it received before. -/
theorem idle_sound (index : UInt16) (frame : FrameData) : Sound ⟨.header1, index, frame⟩ := trivial

/-- What the receiver announces is a question about the abstract receiver. -/
theorem resynchronises_collected (index : UInt16) (frame : FrameData) (first : Noise)
    (segments : List (Frame × Noise)) :
    Resynchronises ⟨.header1, index, frame⟩ first segments ↔
      (collector frameVerdict).emissions 0 [] (streamOf first segments) =
        (frameEnds first.bytes.length segments).map fun p => (p.1, p.2.bytes) := by
  have refined := receiver_emissions (idle_sound index frame) 0 (streamOf first segments)
  simp only [Resynchronises]
  change List.Forall₂ _ _ _ ↔
    (collector frameVerdict).emissions 0 (inProgress ⟨.header1, index, frame⟩) _ = _
  rw [refined, ← List.forall₂_eq_eq_eq, List.forall₂_map_left_iff, List.forall₂_map_right_iff]
  simp only [FrameData.holds_iff, Prod.mk.injEq]

/-- **Resynchronisation, exactly.**  Started in `RECV_STATE_HEADER1` with any
leftovers in its variables, the receiver announces every frame of a stream, each on
its last byte and nothing else, if and only if no frame is preceded by noise that
ends in an odd run of `A5`. -/
theorem resynchronises_iff (index : UInt16) (frame : FrameData) (first : Noise)
    (segments : List (Frame × Noise)) :
    Resynchronises ⟨.header1, index, frame⟩ first segments ↔ EvenGaps first segments := by
  have collected := collected_iff 0 first segments
  rw [Nat.zero_add] at collected
  rw [resynchronises_collected, collected]

/-- One byte `A5` of noise in front of a frame. -/
def strayHeader : Noise := ⟨[frameHeader1], by decide⟩

def oneByteFrame : Frame := ⟨cmdTypeImage, cmdImageTransfer, [0], by decide, by decide⟩

/-- The stream `A5 A5 5A ...` announces nothing: its only frame is lost. -/
theorem stray_header_loses_frame :
    ¬ ∀ (index : UInt16) (frame : FrameData) (first : Noise) (segments : List (Frame × Noise)),
      Resynchronises ⟨.header1, index, frame⟩ first segments := by
  intro all
  have received := all 0 FrameData.zero strayHeader [(oneByteFrame, ⟨[], by decide⟩)]
  have silent : receiver.emissions 0 ⟨.header1, 0, FrameData.zero⟩
      (streamOf strayHeader [(oneByteFrame, ⟨[], by decide⟩)]) = [] := by decide +kernel
  rw [Resynchronises, silent] at received
  cases received

end EinkLiteOS.User
