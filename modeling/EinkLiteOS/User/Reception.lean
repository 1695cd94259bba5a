/-
# User.Reception -- what the receiver accepts, and that it always comes back

Two properties of `recDataProcessing` over every byte stream from reset, read off
its refinement of the abstract receiver:

* `no_false_acceptance`: at every event the stream ends with the frame that
  `g_frame_data` describes, its length is in range, its checksum matches, and the
  stretches accepted at two events never overlap;
* `receiver_invariant`: the state invariant, the bounds of every store, and the
  bounded return to `RECV_STATE_HEADER1` from every reachable state.
-/
import EinkLiteOS.User.RecData

namespace EinkLiteOS.User

open EinkLiteOS.Theory
open EinkLiteOS.Theory.BigEndian

set_option autoImplicit false

/-- From any sound state, what the receiver announces is what the collector
accepts from the bytes in progress. -/
theorem receiver_emissions {c : Recv} (sound : Sound c) (k : Nat) (stream : List UInt8) :
    (collector frameVerdict).emissions k (inProgress c) stream =
      (receiver.emissions k c stream).map fun e => (e.1, e.2.bytes) :=
  receiver_simulates.emissions ⟨sound, rfl⟩ k stream

theorem receiver_final {c : Recv} (sound : Sound c) (stream : List UInt8) :
    Sound (receiver.final c stream) ∧
      (collector frameVerdict).final (inProgress c) stream =
        inProgress (receiver.final c stream) :=
  receiver_simulates.final ⟨sound, rfl⟩ stream

/-- An announced buffer holds a frame, and the bytes read end with that frame. -/
theorem announced_frame {c : Recv} (sound : Sound c) {k : Nat} {stream : List UInt8}
    {e : Nat × FrameData} (member : e ∈ receiver.emissions k c stream) :
    ∃ f : Frame, e.2.Holds f ∧ k < e.1 ∧ f.bytes <:+ inProgress c ++ stream.take (e.1 - k) := by
  have accepted : (e.1, e.2.bytes) ∈
      (collector frameVerdict).emissions k (inProgress c) stream := by
    rw [receiver_emissions sound]
    exact List.mem_map_of_mem member
  obtain ⟨judged, after, ends⟩ := Collector.mem_emissions_accepted accepted
  obtain ⟨f, same⟩ := frame_of_accept judged
  exact ⟨f, (e.2.holds_iff f).mpr same.symm, after, same ▸ ends⟩

theorem FrameData.Holds.length {d : FrameData} {f : Frame} (holds : d.Holds f) :
    d.bytes.length = d.dataLen.toNat + 8 := by
  rw [(d.holds_iff f).mp holds, f.bytes_length, holds.dataLen, f.toNat_dataLen]

/-- **No false acceptance.**  At every byte on which `WIFI_EVENT_RECV` is written,
the most recent `data_len + 8` bytes are the frame that `g_frame_data` describes,
with a length from 1 to 1024 and a matching checksum; the stretches of two events
never overlap. -/
theorem no_false_acceptance (stream : List UInt8) :
    (∀ e ∈ receiver.emissions 0 Recv.reset stream,
      e.2.dataLen.toNat + 8 ≤ e.1 ∧
      (stream.take e.1).drop (e.1 - (e.2.dataLen.toNat + 8)) = e.2.bytes ∧
      1 ≤ e.2.dataLen.toNat ∧ e.2.dataLen.toNat ≤ 1024 ∧
      e.2.crcReceived = crc16Calculate e.2.covered) ∧
    (receiver.emissions 0 Recv.reset stream).Pairwise
      fun e e' => e.1 ≤ e'.1 - (e'.2.dataLen.toNat + 8) := by
  constructor
  · intro e member
    obtain ⟨f, holds, after, front, ends⟩ := announced_frame reset_sound member
    have length := holds.length
    have read : front ++ e.2.bytes = stream.take e.1 := by
      rw [(e.2.holds_iff f).mp holds, ends, inProgress_eq_nil reset_sound |>.mpr rfl,
        List.nil_append, Nat.sub_zero]
    obtain ⟨before, a, back, rfl, position, -⟩ := (receiver.mem_emissions).mp member
    have total : (front ++ e.2.bytes).length = e.1 := by
      rw [read, List.length_take, List.length_append, List.length_cons]
      omega
    rw [List.length_append, length] at total
    refine ⟨by omega, ?_, ?_, ?_, ?_⟩
    · rw [← read, List.drop_append_of_le_length (by omega), List.drop_of_length_le (by omega),
        List.nil_append]
    · rw [holds.dataLen, f.toNat_dataLen]; exact f.nonempty
    · rw [holds.dataLen, f.toNat_dataLen]; exact f.fits
    · rw [holds.crcReceived, Frame.crc, Frame.covered, FrameData.covered, holds.cmdType,
        holds.cmd, holds.dataLen, holds.payload]
  · have disjoint := Collector.emissions_disjoint frameVerdict 0 [] stream
    have same := receiver_emissions reset_sound 0 stream
    rw [inProgress_eq_nil reset_sound |>.mpr rfl] at same
    rw [same, List.pairwise_map] at disjoint
    refine disjoint.imp_of_mem fun {e e'} _ member apart => ?_
    obtain ⟨f, holds, -, -⟩ := announced_frame reset_sound member
    rw [holds.length] at apart
    omega

/-! ## Bounds -/

/-- Every store of a sound step is inside its array. -/
theorem stores_inside {c : Recv} (sound : Sound c) (data : UInt8) :
    (∀ i, RecvEffect.storeData i ∈ (recDataProcessing c data).2 → i < maxDataLen) ∧
      ∀ i, RecvEffect.storeCrc i ∈ (recDataProcessing c data).2 → i < 6 + maxDataLen := by
  obtain ⟨state, index, frame⟩ := c
  cases state with
  | header1 | header2 | lenLow =>
      simp only [recDataProcessing]
      split <;> simp
  | cmdType | cmd | lenHigh | crcHigh => simp [recDataProcessing]
  | data =>
      obtain ⟨inside, -, bounded⟩ : index.toNat < frame.dataLen.toNat ∧ LenOk frame := sound
      simp only [recDataProcessing, UInt16.lt_iff_toNat_lt, inside, if_true]
      refine ⟨fun i member => ?_, fun i member => by simp at member⟩
      simp only [List.mem_singleton, RecvEffect.storeData.injEq] at member
      omega
  | crcLow =>
      obtain ⟨-, ok, -⟩ : index = frame.dataLen ∧ LenOk frame ∧
        lowByte frame.crcReceived = 0 := sound
      have bounded := ok.2
      simp only [recDataProcessing, recCheckCrc, List.mem_append, List.mem_map, List.mem_range]
      constructor
      · rintro i (⟨j, -, same⟩ | member)
        · cases same
        · split at member <;> simp at member
      · rintro i (⟨j, below, same⟩ | member)
        · cases same
          omega
        · split at member <;> simp at member
  | other raw => exact sound.elim

/-- What holds in every reachable state of the receiver: the index and the length in
the states that use them, the bounds of every store of the next byte, and the way
back to idle. -/
structure ReceiverInvariant (c : Recv) : Prop where
  data : c.recState = .data →
    c.dataIndex < c.frameData.dataLen ∧ c.frameData.dataLen.toNat ≤ 1024
  crc : c.recState = .crcHigh ∨ c.recState = .crcLow →
    c.dataIndex = c.frameData.dataLen ∧
      1 ≤ c.frameData.dataLen.toNat ∧ c.frameData.dataLen.toNat ≤ 1024
  dataStores : ∀ data i, RecvEffect.storeData i ∈ (recDataProcessing c data).2 → i < 1024
  crcStores : ∀ data i, RecvEffect.storeCrc i ∈ (recDataProcessing c data).2 → i < 6 + maxDataLen
  /-- The `default` arm is not taken. -/
  noDefault : ∀ raw, c.recState ≠ .other raw
  /-- Whatever bytes follow, the machine is idle after at most 1031 of them. -/
  returns : ∀ follow : List UInt8, 1031 ≤ follow.length →
    ∃ n, n ≤ 1031 ∧ (receiver.final c (follow.take n)).recState = .header1

/-- **The receiver invariant and the bounded return to idle**, in every state that
any byte stream reaches from reset. -/
theorem receiver_invariant (stream : List UInt8) :
    ReceiverInvariant (receiver.final Recv.reset stream) := by
  obtain ⟨sound, held⟩ := receiver_final reset_sound stream
  generalize receiver.final Recv.reset stream = c at sound held
  refine ⟨?_, ?_, fun data => (stores_inside sound data).1,
    fun data => (stores_inside sound data).2, ?_, ?_⟩
  · intro state
    rw [Sound, state] at sound
    exact ⟨UInt16.lt_iff_toNat_lt.mpr sound.1, sound.2.2⟩
  · rintro (state | state)
    · rw [Sound, state] at sound
      exact ⟨sound.1, sound.2.1, sound.2.2⟩
    · rw [Sound, state] at sound
      exact ⟨sound.1, sound.2.1.1, sound.2.1.2⟩
  · intro raw state
    rw [Sound, state] at sound
    exact sound
  · intro follow enough
    by_cases idle : c.recState = .header1
    · exact ⟨0, by omega, by rw [List.take_zero]; exact idle⟩
    · have nonempty : inProgress c ≠ [] := fun h => idle ((inProgress_eq_nil sound).mp h)
      have within : (inProgress c).length ≤ 1031 := by
        have start : Collector.Held frameVerdict (inProgress Recv.reset) :=
          Or.inl ((inProgress_eq_nil reset_sound).mpr rfl)
        rcases held ▸ Collector.held_final start stream with none_ | judged
        · exact absurd none_ nonempty
        · exact more_length judged
      have positive := List.length_pos_of_ne_nil nonempty
      obtain ⟨n, -, early, back⟩ :=
        Collector.returns (fun _ => more_length) (inProgress c) follow nonempty within
          (by show 1031 + 1 ≤ _; omega)
      obtain ⟨stillSound, same⟩ := receiver_final sound (follow.take n)
      exact ⟨n, by simp only [maxDataLen] at early; omega,
        (inProgress_eq_nil stillSound).mp (same ▸ back)⟩

end EinkLiteOS.User
