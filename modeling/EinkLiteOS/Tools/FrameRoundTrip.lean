/-
# Tools.FrameRoundTrip -- from the packer through the receiver

The two ends of the image transfer, written in two languages, meet here: the
frames `pack_image_to_frames` makes of an image, fed byte by byte to
`recDataProcessing`, are announced one by one and carry the image.
-/
import EinkLiteOS.Tools.FramePacker
import EinkLiteOS.User.Resync

namespace EinkLiteOS.Tools

open EinkLiteOS.Theory
open EinkLiteOS.User

set_option autoImplicit false

/-- The image arrives: `wire` is the packed frames as bytes, and the receiver
started in `start` announces each of them on its last byte, with the image packet
in `g_frame_data`, and is idle at the end. -/
structure Delivers (image : List UInt8) (start : Recv) (wire : List UInt8) : Prop where
  /-- Every integer the packer emits is the byte that is sent. -/
  wire_eq : wire.map UInt8.toNat = (packImageToFrames (image.map UInt8.toNat)).flatten
  count : (receiver.emissions 0 start wire).length = (image.length + 1021) / 1022
  /-- The `k`-th event comes on the last byte of the `k`-th frame. -/
  position : ∀ (k : Nat) (e : Nat × FrameData), (receiver.emissions 0 start wire)[k]? = some e →
    e.1 = ((packImageToFrames (image.map UInt8.toNat)).take (k + 1)).flatten.length
  header : ∀ (k : Nat) (e : Nat × FrameData), (receiver.emissions 0 start wire)[k]? = some e →
    e.2.cmdType = User.cmdTypeImage ∧ e.2.cmd = User.cmdImageTransfer ∧
      3 ≤ e.2.dataLen.toNat ∧ e.2.dataLen.toNat ≤ 1024
  packet : ∀ (k : Nat) (e : Nat × FrameData), (receiver.emissions 0 start wire)[k]? = some e →
    e.2.dataBuffer[0]?.map UInt8.toNat = some ((image.length + 1021) / 1022) ∧
      e.2.dataBuffer[1]?.map UInt8.toNat = some (k + 1)
  /-- `data_buffer[2 .. data_len)` over all events is the image. -/
  content : (receiver.emissions 0 start wire).flatMap (fun e => e.2.payload.drop 2) = image
  idle : (receiver.final start wire).recState = .header1

/-- No noise. -/
def silence : Noise := ⟨[], by decide⟩

theorem streamOf_silence (frames : List Frame) :
    streamOf silence (frames.map fun f => (f, silence)) = frames.flatMap Frame.bytes := by
  simp [streamOf, silence, List.flatMap_map]

theorem evenGaps_silence (frames : List Frame) :
    EvenGaps silence (frames.map fun f => (f, silence)) := by
  intro g member
  have quiet : g = silence := by
    have := List.dropLast_subset _ member
    simp only [List.map_map, List.mem_cons, List.mem_map, Function.comp_apply] at this
    rcases this with same | ⟨_, -, same⟩
    · exact same
    · exact same.symm
  rw [quiet]
  decide

/-- The frames of a gapless stream end where the frames before them end. -/
theorem frameEnds_silence (n : Nat) (frames : List Frame) {k : Nat} {p : Nat × Frame}
    (found : (frameEnds n (frames.map fun f => (f, silence)))[k]? = some p) :
    frames[k]? = some p.2 ∧ p.1 = n + ((frames.take (k + 1)).flatMap Frame.bytes).length := by
  induction frames generalizing n k with
  | nil => simp [frameEnds] at found
  | cons f rest ih =>
      rw [List.map_cons, frameEnds] at found
      cases k with
      | zero =>
          obtain rfl := Option.some.inj found
          simp
      | succ k =>
          obtain ⟨frame, position⟩ := ih (n + f.bytes.length + silence.bytes.length)
            (by rwa [List.getElem?_cons_succ] at found)
          refine ⟨by simpa using frame, ?_⟩
          rw [position, List.take_succ_cons, List.flatMap_cons, List.length_append]
          simp only [silence, List.length_nil]
          omega

theorem frameEnds_frames (n : Nat) (segments : List (Frame × Noise)) :
    (frameEnds n segments).map Prod.snd = segments.map Prod.fst := by
  induction segments generalizing n with
  | nil => rfl
  | cons s rest ih => rw [frameEnds, List.map_cons, ih, List.map_cons]

/-- The receiver is idle after a gapless stream of frames. -/
theorem frames_final (frames : List Frame) :
    (collector frameVerdict).final [] (frames.flatMap Frame.bytes) = [] := by
  induction frames with
  | nil => rfl
  | cons f rest ih =>
      rw [List.flatMap_cons, Transducer.final_append, (frame_collected 0 f).1, ih]

/-- Inside the payload the buffer is the payload. -/
theorem dataBuffer_getElem? (d : FrameData) {i : Nat} (inside : i < d.dataLen.toNat) :
    d.dataBuffer[i]? = d.payload[i]? := by
  rw [FrameData.payload, List.getElem?_take_of_lt inside, Vector.getElem?_toList]

/-- The bytes of a packed image. -/
def imageWire (image : List UInt8) : List UInt8 := (imageFrames image).flatMap Frame.bytes

/-- What the receiver announces of a packed image: its frames, each on its last byte. -/
theorem imageFrames_announced (image : List UInt8) (index : UInt16) (frame : FrameData) :
    List.Forall₂ (fun e p => e.1 = p.1 ∧ e.2.Holds p.2)
      (receiver.emissions 0 ⟨.header1, index, frame⟩ (imageWire image))
      (frameEnds 0 ((imageFrames image).map fun f => (f, silence))) := by
  have collected := (collected_iff 0 silence _).mpr (evenGaps_silence (imageFrames image))
  have received := (resynchronises_collected index frame silence _).mpr collected
  rwa [Resynchronises, streamOf_silence] at received

theorem length_imageFrames (image : List UInt8) :
    (imageFrames image).length = packetCount image := by
  rw [imageFrames, List.length_map, List.length_range]

/-- The `k`-th event: it holds packet `k` and comes on its last byte. -/
theorem announced_packet {image : List UInt8} {index : UInt16} {frame : FrameData} {k : Nat}
    {e : Nat × FrameData}
    (found : (receiver.emissions 0 ⟨.header1, index, frame⟩ (imageWire image))[k]? = some e) :
    k < packetCount image ∧ e.2.Holds (packet image k) ∧
      e.1 = (((imageFrames image).take (k + 1)).flatMap Frame.bytes).length := by
  have announced := imageFrames_announced image index frame
  obtain ⟨inside, rfl⟩ := List.getElem?_eq_some_iff.mp found
  have inEnds := announced.length_eq ▸ inside
  obtain ⟨position, holds⟩ := (List.forall₂_iff_get.mp announced).2 k inside inEnds
  obtain ⟨isFrame, ends⟩ :=
    frameEnds_silence 0 (imageFrames image) (List.getElem?_eq_getElem inEnds)
  obtain ⟨below, same⟩ := List.getElem?_eq_some_iff.mp isFrame
  rw [length_imageFrames] at below
  simp only [imageFrames, List.getElem_map, List.getElem_range] at same
  simp only [List.get_eq_getElem] at position holds
  exact ⟨below, same ▸ holds, by rw [position, ends, Nat.zero_add]⟩

/-- The payloads announced are those of the frames. -/
theorem announced_payloads (image : List UInt8) (index : UInt16) (frame : FrameData) :
    (receiver.emissions 0 ⟨.header1, index, frame⟩ (imageWire image)).map (fun e => e.2.payload) =
      (imageFrames image).map Frame.payload := by
  have listed := congrArg (List.map Frame.payload)
    (frameEnds_frames 0 ((imageFrames image).map fun f => (f, silence)))
  simp only [List.map_map, Function.comp_def] at listed
  rw [← listed, ← List.forall₂_eq_eq_eq, List.forall₂_map_left_iff, List.forall₂_map_right_iff]
  exact (imageFrames_announced image index frame).imp fun _ _ same => same.2.payload

/-- The fields of a buffer that holds packet `k` of an image. -/
theorem holds_packet {image : List UInt8} (bounded : image.length ≤ 255 * 1022) {k : Nat}
    (below : k < packetCount image) {d : FrameData} (holds : d.Holds (packet image k)) :
    d.cmdType = User.cmdTypeImage ∧ d.cmd = User.cmdImageTransfer ∧
      3 ≤ d.dataLen.toNat ∧ d.dataLen.toNat ≤ 1024 ∧
      d.dataBuffer[0]?.map UInt8.toNat = some (packetCount image) ∧
      d.dataBuffer[1]?.map UInt8.toNat = some (k + 1) := by
  have count : packetCount image < 256 ∧ k * 1022 < image.length := by
    simp only [packetCount] at below ⊢
    omega
  have length : d.dataLen.toNat = 2 + min 1022 (image.length - k * 1022) := by
    rw [holds.dataLen, Frame.toNat_dataLen, Nat.add_comm]
    exact congrArg (· + 2) (Slices.length_slice _ _ _)
  have payload : d.payload = UInt8.ofNat (packetCount image) :: UInt8.ofNat (k + 1) ::
      Slices.slice maxImageDataLen image k := holds.payload
  refine ⟨holds.cmdType, holds.cmd, by omega, by omega, ?_, ?_⟩
  · rw [dataBuffer_getElem? d (by omega), payload, List.getElem?_cons_zero, Option.map_some,
      UInt8.toNat_ofNat_of_lt' count.1]
  · rw [dataBuffer_getElem? d (by omega), payload, List.getElem?_cons_succ,
      List.getElem?_cons_zero, Option.map_some,
      UInt8.toNat_ofNat_of_lt' (show k + 1 < 256 by omega)]

/-- **Frame round trip.**  An image of at most `255 * 1022` bytes, packed on the PC and
received from `RECV_STATE_HEADER1` with any leftovers in the variables, arrives. -/
theorem frame_round_trip (image : List UInt8) (index : UInt16) (frame : FrameData)
    (bounded : image.length ≤ 255 * 1022) :
    ∃ wire, Delivers image ⟨.header1, index, frame⟩ wire := by
  have packed := packImageToFrames_eq image bounded
  refine ⟨imageWire image, ?_, ?_, ?_, ?_, ?_, ?_, ?_⟩
  · rw [packed, imageWire, List.map_flatMap, ← List.flatMap_def]
  · have payloads := congrArg List.length (announced_payloads image index frame)
    rwa [List.length_map, List.length_map, length_imageFrames] at payloads
  · intro k e found
    rw [(announced_packet found).2.2, packed, ← List.map_take, ← List.flatMap_def,
      List.length_flatMap, List.length_flatMap]
    simp
  · intro k e found
    obtain ⟨below, holds, -⟩ := announced_packet found
    obtain ⟨cmdType, cmd, atLeast, atMost, -⟩ := holds_packet bounded below holds
    exact ⟨cmdType, cmd, atLeast, atMost⟩
  · intro k e found
    obtain ⟨below, holds, -⟩ := announced_packet found
    exact (holds_packet bounded below holds).2.2.2.2
  · have content := imageFrames_payload image
    rw [← List.flatMap_map (f := Frame.payload) (g := List.drop 2),
      ← announced_payloads image index frame, List.flatMap_map] at content
    exact content
  · obtain ⟨sound, reached⟩ := receiver_final (idle_sound index frame) (imageWire image)
    exact (inProgress_eq_nil sound).mp (reached.symm.trans (frames_final _))

/-- One byte more than a packet holds. -/
theorem frame_round_trip_two_packets :
    ∃ wire, Delivers (List.replicate 1023 0x55) Recv.reset wire := by
  have bounded : (List.replicate 1023 (0x55 : UInt8)).length ≤ 255 * 1022 := by
    rw [List.length_replicate]
    decide
  exact frame_round_trip (List.replicate 1023 0x55) 0 FrameData.zero bounded

end EinkLiteOS.Tools
