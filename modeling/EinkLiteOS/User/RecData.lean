/-
# User.RecData -- the receive state machine of the UART interrupt

`recDataProcessing` of `User/ch32v30x_it.c`, one call per received byte: nine
states, two function-local statics (`recState`, `data_index`) and the global
buffer `g_frame_data`.  A step returns its effects in order: what it prints, the
index of every store to `data_buffer` and to the local array `crc_data`, and the
event it writes.

Below the model stands its refinement of the abstract receiver: `inProgress`
reads off the state the bytes of the frame being received, `Sound` is the
invariant of the nine states, and `receiver_simulates` says that every step does
to those bytes what `Theory.collector` does with `frameVerdict`.
-/
import EinkLiteOS.User.Frame

namespace EinkLiteOS.User

open EinkLiteOS.Theory
open EinkLiteOS.Theory.BigEndian

set_option autoImplicit false

/-- What one call of `recDataProcessing` does besides changing its variables. -/
inductive RecvEffect where
  | printf (format : String) (args : List Nat)
  | storeData (index : Nat)
  | storeCrc (index : Nat)
  | eventWrite (events : UInt32)
  deriving DecidableEq, Repr

/-- The variables of `recDataProcessing`: its two statics and the global buffer. -/
structure Recv where
  recState : RecvState
  dataIndex : UInt16
  frameData : FrameData
  deriving DecidableEq, Repr

namespace Recv

/-- The variables after reset. -/
def reset : Recv := ⟨.header1, 0, FrameData.zero⟩

end Recv

/-- The end of a frame, in `RECV_STATE_CRC_LOW` once `crc_received` is complete:
the four header bytes and the `data_len` payload bytes are copied to `crc_data`,
which is then summed and compared. -/
def recCheckCrc (frame : FrameData) : Recv × List RecvEffect :=
  let crcCalculated := crc16Calculate frame.covered
  let stores := (List.range (4 + frame.dataLen.toNat)).map RecvEffect.storeCrc
  let verdict :=
    if frame.crcReceived = crcCalculated then
      [.printf "[OK] Frame received: type=0x%02X, cmd=0x%02X, len=%d, CRC=0x%04X\r\n"
          [frame.cmdType.toNat, frame.cmd.toNat, frame.dataLen.toNat, frame.crcReceived.toNat],
        .eventWrite wifiEventRecv]
    else
      [.printf "[ERR] CRC mismatch: received=0x%04X, calculated=0x%04X\r\n"
        [frame.crcReceived.toNat, crcCalculated.toNat]]
  (⟨.header1, 0, frame⟩, stores ++ verdict)

/-- `recDataProcessing(data)`. -/
def recDataProcessing (c : Recv) (data : UInt8) : Recv × List RecvEffect :=
  match c.recState with
  | .header1 =>
      if data = frameHeader1 then ({ c with recState := .header2 }, [])
      else (c, [.printf "[ERR] Header1 mismatch: 0x%02X (expected 0xA5)\r\n" [data.toNat]])
  | .header2 =>
      if data = frameHeader2 then ({ c with recState := .cmdType }, [])
      else ({ c with recState := .header1 },
        [.printf "[ERR] Header2 mismatch: 0x%02X (expected 0x5A)\r\n" [data.toNat]])
  | .cmdType =>
      ({ c with recState := .cmd, frameData := { c.frameData with cmdType := data } }, [])
  | .cmd =>
      ({ c with recState := .lenHigh, frameData := { c.frameData with cmd := data } }, [])
  | .lenHigh =>
      ({ c with
          recState := .lenLow
          frameData := { c.frameData with dataLen := data.toUInt16 <<< 8 } }, [])
  | .lenLow =>
      let frame := { c.frameData with dataLen := c.frameData.dataLen ||| data.toUInt16 }
      if 0 < frame.dataLen.toNat ∧ frame.dataLen.toNat ≤ maxDataLen then
        (⟨.data, 0, frame⟩, [])
      else
        ({ c with recState := .header1, frameData := frame },
          [.printf "[ERR] Invalid data length: %d (max: %d)\r\n"
            [frame.dataLen.toNat, maxDataLen]])
  | .data =>
      if c.dataIndex < c.frameData.dataLen then
        let frame := { c.frameData with
          dataBuffer := c.frameData.dataBuffer.setIfInBounds c.dataIndex.toNat data }
        let next := c.dataIndex + 1
        let state := if frame.dataLen ≤ next then RecvState.crcHigh else c.recState
        (⟨state, next, frame⟩, [.storeData c.dataIndex.toNat])
      else (c, [])
  | .crcHigh =>
      ({ c with
          recState := .crcLow
          frameData := { c.frameData with crcReceived := data.toUInt16 <<< 8 } }, [])
  | .crcLow =>
      recCheckCrc
        { c.frameData with crcReceived := c.frameData.crcReceived ||| data.toUInt16 }
  | .other raw =>
      ({ c with recState := .header1, dataIndex := 0 },
        [.printf "[ERR] Invalid state: %d\r\n" [raw.toNat]])

/-- The buffer, at every event one call writes. -/
def announced (c : Recv) (effects : List RecvEffect) : List FrameData :=
  effects.filterMap fun
    | .eventWrite _ => some c.frameData
    | _ => none

/-- The interrupt's receiver: it reads bytes and announces frames, that is, it
writes `WIFI_EVENT_RECV` while `g_frame_data` holds them. -/
def receiver : Transducer Recv UInt8 FrameData where
  step c data :=
    let (next, effects) := recDataProcessing c data
    (next, announced next effects)

/-! ## The bytes in progress -/

/-- The bytes of the frame being received, read off the variables. -/
def inProgress (c : Recv) : List UInt8 :=
  match c.recState with
  | .header1 | .other _ => []
  | .header2 => [frameHeader1]
  | .cmdType => [frameHeader1, frameHeader2]
  | .cmd => [frameHeader1, frameHeader2, c.frameData.cmdType]
  | .lenHigh => [frameHeader1, frameHeader2, c.frameData.cmdType, c.frameData.cmd]
  | .lenLow =>
      [frameHeader1, frameHeader2, c.frameData.cmdType, c.frameData.cmd,
        highByte c.frameData.dataLen]
  | .data =>
      frameHeader1 :: frameHeader2 :: c.frameData.cmdType :: c.frameData.cmd ::
        highByte c.frameData.dataLen :: lowByte c.frameData.dataLen ::
          c.frameData.dataBuffer.toList.take c.dataIndex.toNat
  | .crcHigh => frameHeader1 :: frameHeader2 :: c.frameData.covered
  | .crcLow =>
      frameHeader1 :: frameHeader2 ::
        (c.frameData.covered ++ [highByte c.frameData.crcReceived])

/-- A length the receiver goes on with. -/
def LenOk (d : FrameData) : Prop := 0 < d.dataLen.toNat ∧ d.dataLen.toNat ≤ maxDataLen

instance (d : FrameData) : Decidable (LenOk d) := inferInstanceAs (Decidable (_ ∧ _))

/-- The invariant of the nine states. -/
def Sound (c : Recv) : Prop :=
  match c.recState with
  | .header1 | .header2 | .cmdType | .cmd | .lenHigh => True
  | .lenLow => lowByte c.frameData.dataLen = 0
  | .data => c.dataIndex.toNat < c.frameData.dataLen.toNat ∧ LenOk c.frameData
  | .crcHigh => c.dataIndex = c.frameData.dataLen ∧ LenOk c.frameData
  | .crcLow =>
      c.dataIndex = c.frameData.dataLen ∧ LenOk c.frameData ∧
        lowByte c.frameData.crcReceived = 0
  | .other _ => False

theorem reset_sound : Sound Recv.reset := trivial

/-- The bytes in progress tell the idle state from all others. -/
theorem inProgress_eq_nil {c : Recv} (sound : Sound c) :
    inProgress c = [] ↔ c.recState = .header1 := by
  obtain ⟨state, index, frame⟩ := c
  cases state <;> simp_all [inProgress, Sound]

/-! ## One step -/

/-- Storing the next payload byte extends the received part of the buffer by it. -/
theorem take_store {n : Nat} (buffer : Vector UInt8 n) {i : Nat} (inside : i < n) (data : UInt8) :
    (buffer.setIfInBounds i data).toList.take (i + 1) = buffer.toList.take i ++ [data] := by
  have length : i < (buffer.toList.set i data).length := by simpa using inside
  rw [Vector.toList_setIfInBounds, List.take_succ_eq_append_getElem length,
    List.take_set_of_le (Nat.le_refl i), List.getElem_set_self]

theorem toNat_succ_of_lt {i len : UInt16} (below : i.toNat < len.toNat) :
    (i + 1).toNat = i.toNat + 1 := by
  have := len.toNat_lt
  rw [UInt16.toNat_add]
  show (i.toNat + 1) % 2 ^ 16 = i.toNat + 1
  omega

theorem announced_append (c : Recv) (front back : List RecvEffect) :
    announced c (front ++ back) = announced c front ++ announced c back :=
  List.filterMap_append

theorem announced_stores (c : Recv) (n : Nat) :
    announced c ((List.range n).map RecvEffect.storeCrc) = [] := by
  simp [announced, List.filterMap_map]

/-- A field whose low byte is still clear is its high byte alone. -/
theorem eq_joinBytes_of_low {w : UInt16} (low : lowByte w = 0) : w = joinBytes (highByte w) 0 := by
  conv => lhs; rw [← joinBytes_high_low w, low]

theorem or_low {w : UInt16} (low : lowByte w = 0) (data : UInt8) :
    w ||| data.toUInt16 = joinBytes (highByte w) data := by
  conv => lhs; rw [eq_joinBytes_of_low low]
  exact joinBytes_or _ _

/-! ### The steps of the receiver, state by state -/

section Steps

variable {index : UInt16} {frame : FrameData} {data : UInt8}

/-- The buffer once the low length byte is in. -/
def withLen (frame : FrameData) (data : UInt8) : FrameData :=
  { frame with dataLen := joinBytes (highByte frame.dataLen) data }

/-- The buffer once the low checksum byte is in. -/
def withCrc (frame : FrameData) (data : UInt8) : FrameData :=
  { frame with crcReceived := joinBytes (highByte frame.crcReceived) data }

/-- The buffer once payload byte `i` is in. -/
def withData (frame : FrameData) (i : Nat) (data : UInt8) : FrameData :=
  { frame with dataBuffer := frame.dataBuffer.setIfInBounds i data }

theorem step_header1 : receiver.step ⟨.header1, index, frame⟩ data =
    (⟨if data = frameHeader1 then .header2 else .header1, index, frame⟩, []) := by
  simp only [receiver, recDataProcessing]
  split <;> rfl

theorem step_header2 : receiver.step ⟨.header2, index, frame⟩ data =
    (⟨if data = frameHeader2 then .cmdType else .header1, index, frame⟩, []) := by
  simp only [receiver, recDataProcessing]
  split <;> rfl

theorem step_lenLow (low : lowByte frame.dataLen = 0) :
    receiver.step ⟨.lenLow, index, frame⟩ data =
      if LenOk (withLen frame data) then (⟨.data, 0, withLen frame data⟩, [])
      else (⟨.header1, index, withLen frame data⟩, []) := by
  have same : LenOk (withLen frame data) ↔
      0 < (joinBytes (highByte frame.dataLen) data).toNat ∧
        (joinBytes (highByte frame.dataLen) data).toNat ≤ maxDataLen := Iff.rfl
  simp only [receiver, recDataProcessing, or_low low, ← same]
  by_cases ok : LenOk (withLen frame data)
  · simp only [ok, if_true]
    rfl
  · simp only [ok, if_false]
    rfl

theorem step_data (inside : index.toNat < frame.dataLen.toNat) :
    receiver.step ⟨.data, index, frame⟩ data =
      (⟨if frame.dataLen.toNat = index.toNat + 1 then .crcHigh else .data, index + 1,
        withData frame index.toNat data⟩, []) := by
  have last : frame.dataLen ≤ index + 1 ↔ frame.dataLen.toNat = index.toNat + 1 := by
    rw [UInt16.le_iff_toNat_le, toNat_succ_of_lt inside]
    omega
  simp only [receiver, recDataProcessing, UInt16.lt_iff_toNat_lt, inside, if_true, last]
  rfl

theorem step_crcHigh : receiver.step ⟨.crcHigh, index, frame⟩ data =
    (⟨.crcLow, index, { frame with crcReceived := joinBytes data 0 }⟩, []) := by
  simp only [receiver, recDataProcessing, shift_eq_joinBytes]
  rfl

/-- The checksum comparison announces the frame or nothing. -/
theorem announced_recCheckCrc (frame : FrameData) :
    announced (recCheckCrc frame).1 (recCheckCrc frame).2 =
      if frame.crcReceived = crc16Calculate frame.covered then [frame] else [] := by
  simp only [recCheckCrc, announced_append, announced_stores, List.nil_append]
  split <;> rfl

theorem step_crcLow (low : lowByte frame.crcReceived = 0) :
    receiver.step ⟨.crcLow, index, frame⟩ data =
      (⟨.header1, 0, withCrc frame data⟩,
        if (withCrc frame data).crcReceived = crc16Calculate (withCrc frame data).covered then
          [withCrc frame data] else []) := by
  have complete : ({ frame with crcReceived := frame.crcReceived ||| data.toUInt16 } : FrameData) =
      withCrc frame data := by
    rw [or_low low, withCrc]
  rw [← announced_recCheckCrc, ← complete]
  rfl

end Steps

/-! ### The refinement -/

/-- What one step must do to the abstract receiver: keep the invariant, and do to
the bytes in progress what the collector does. -/
def StepRefines (c : Recv) (data : UInt8) : Prop :=
  Sound (receiver.step c data).1 ∧
    (collector frameVerdict).step (inProgress c) data =
      (inProgress (receiver.step c data).1, (receiver.step c data).2.map FrameData.bytes)

theorem header1_refines (index : UInt16) (frame : FrameData) (data : UInt8) :
    StepRefines ⟨.header1, index, frame⟩ data := by
  rw [StepRefines, step_header1]
  by_cases first : data = frameHeader1
  · simp [first, Sound, inProgress, collector, frameVerdict]
  · simp [first, Sound, inProgress, collector, frameVerdict]

theorem header2_refines (index : UInt16) (frame : FrameData) (data : UInt8) :
    StepRefines ⟨.header2, index, frame⟩ data := by
  rw [StepRefines, step_header2]
  by_cases second : data = frameHeader2
  · simp [second, Sound, inProgress, collector, frameVerdict]
  · simp [second, Sound, inProgress, collector, frameVerdict]

theorem lenLow_refines (index : UInt16) (frame : FrameData) (data : UInt8)
    (sound : Sound ⟨.lenLow, index, frame⟩) : StepRefines ⟨.lenLow, index, frame⟩ data := by
  rw [StepRefines, step_lenLow sound]
  by_cases ok : LenOk (withLen frame data)
  · have judged : frameVerdict (inProgress ⟨.lenLow, index, frame⟩ ++ [data]) = .more := by
      have ok' := ok
      rw [LenOk, withLen] at ok'
      simp only [inProgress, frameVerdict, List.cons_append, List.nil_append, ok', and_self,
        if_true, List.length_nil, Nat.zero_lt_succ]
    rw [Collector.step_more judged, if_pos ok]
    refine ⟨⟨ok.1, ok⟩, ?_⟩
    simp [inProgress, withLen]
  · have judged : frameVerdict (inProgress ⟨.lenLow, index, frame⟩ ++ [data]) = .reject := by
      have ok' := ok
      rw [LenOk, withLen] at ok'
      simp only [inProgress, frameVerdict, List.cons_append, List.nil_append, true_and, ok',
        if_false]
    rw [Collector.step_reject judged, if_neg ok]
    exact ⟨trivial, rfl⟩

theorem data_refines (index : UInt16) (frame : FrameData) (data : UInt8)
    (sound : Sound ⟨.data, index, frame⟩) : StepRefines ⟨.data, index, frame⟩ data := by
  obtain ⟨inside, positive, bounded⟩ : index.toNat < frame.dataLen.toNat ∧ LenOk frame := sound
  have judged : frameVerdict (inProgress ⟨.data, index, frame⟩ ++ [data]) = .more := by
    simp only [inProgress, List.cons_append]
    rw [frameVerdict_body _ positive bounded, if_pos]
    rw [List.length_append, List.length_take, List.length_singleton]
    omega
  have next := toNat_succ_of_lt inside
  have stored := take_store frame.dataBuffer (Nat.lt_of_lt_of_le inside bounded) data
  rw [StepRefines, Collector.step_more judged, step_data inside]
  by_cases last : frame.dataLen.toNat = index.toNat + 1
  · have full : index + 1 = frame.dataLen := UInt16.toNat_inj.mp (by rw [next, last])
    rw [if_pos last]
    refine ⟨⟨full, positive, bounded⟩, ?_⟩
    simp only [inProgress, FrameData.covered, FrameData.payload, withData, last, stored,
      List.cons_append, List.map_nil]
  · rw [if_neg last]
    refine ⟨⟨by show (index + 1).toNat < frame.dataLen.toNat; omega, positive, bounded⟩, ?_⟩
    simp only [inProgress, withData, next, stored, List.cons_append, List.map_nil]

theorem crcHigh_refines (index : UInt16) (frame : FrameData) (data : UInt8)
    (sound : Sound ⟨.crcHigh, index, frame⟩) : StepRefines ⟨.crcHigh, index, frame⟩ data := by
  obtain ⟨full, positive, bounded⟩ : index = frame.dataLen ∧ LenOk frame := sound
  have judged : frameVerdict (inProgress ⟨.crcHigh, index, frame⟩ ++ [data]) = .more := by
    simp only [inProgress, FrameData.covered, List.cons_append]
    rw [frameVerdict_body _ positive bounded, if_pos]
    rw [List.length_append, FrameData.payload_length bounded, List.length_singleton]
    omega
  rw [StepRefines, Collector.step_more judged, step_crcHigh]
  refine ⟨⟨full, ⟨positive, bounded⟩, lowByte_joinBytes _ _⟩, ?_⟩
  simp [inProgress, FrameData.covered, FrameData.payload]

/-- The verdict on the bytes of a complete buffer is the checksum comparison. -/
theorem frameVerdict_buffer {d : FrameData} (ok : LenOk d) :
    frameVerdict d.bytes =
      if d.crcReceived = crc16Calculate d.covered then .accept else .reject := by
  have split : d.bytes = frameHeader1 :: frameHeader2 :: d.cmdType :: d.cmd ::
      highByte d.dataLen :: lowByte d.dataLen ::
        (d.payload ++ [highByte d.crcReceived, lowByte d.crcReceived]) := by
    simp [FrameData.bytes, FrameData.covered]
  rw [split, frameVerdict_complete _ (FrameData.payload_length ok.2) ok.1 ok.2]
  rfl

theorem crcLow_refines (index : UInt16) (frame : FrameData) (data : UInt8)
    (sound : Sound ⟨.crcLow, index, frame⟩) : StepRefines ⟨.crcLow, index, frame⟩ data := by
  obtain ⟨_, ok, low⟩ : index = frame.dataLen ∧ LenOk frame ∧ lowByte frame.crcReceived = 0 := sound
  have word : inProgress ⟨.crcLow, index, frame⟩ ++ [data] = (withCrc frame data).bytes := by
    simp [inProgress, FrameData.bytes, FrameData.covered, FrameData.payload, withCrc]
  have judged := frameVerdict_buffer (d := withCrc frame data) ok
  rw [← word] at judged
  rw [StepRefines, step_crcLow low]
  by_cases checksum : (withCrc frame data).crcReceived = crc16Calculate (withCrc frame data).covered
  · rw [if_pos checksum] at judged ⊢
    rw [Collector.step_accept judged, word]
    exact ⟨trivial, rfl⟩
  · rw [if_neg checksum] at judged ⊢
    rw [Collector.step_reject judged]
    exact ⟨trivial, rfl⟩

/-- **One step of `recDataProcessing` refines one step of the collector**, in each
of the nine states. -/
theorem step_refines {c : Recv} (sound : Sound c) (data : UInt8) : StepRefines c data := by
  obtain ⟨state, index, frame⟩ := c
  cases state with
  | header1 => exact header1_refines index frame data
  | header2 => exact header2_refines index frame data
  | cmdType => exact ⟨trivial, rfl⟩
  | cmd => exact ⟨trivial, rfl⟩
  | lenHigh =>
      refine ⟨?_, ?_⟩
      · show lowByte (data.toUInt16 <<< 8) = 0
        rw [shift_eq_joinBytes, lowByte_joinBytes]
      · simp [collector, inProgress, frameVerdict, receiver, recDataProcessing, announced,
          shift_eq_joinBytes]
  | lenLow => exact lenLow_refines index frame data sound
  | data => exact data_refines index frame data sound
  | crcHigh => exact crcHigh_refines index frame data sound
  | crcLow => exact crcLow_refines index frame data sound
  | other raw => exact sound.elim

/-- **The receive state machine simulates the abstract receiver**: along the bytes
in progress, what it announces is what the collector accepts. -/
theorem receiver_simulates :
    Simulates receiver (collector frameVerdict) (fun c held => Sound c ∧ held = inProgress c)
      FrameData.bytes where
  related := by
    rintro c held data ⟨sound, rfl⟩
    obtain ⟨kept, stepped⟩ := step_refines sound data
    exact ⟨kept, by rw [stepped]⟩
  emitted := by
    rintro c held data ⟨sound, rfl⟩
    rw [(step_refines sound data).2]

end EinkLiteOS.User
