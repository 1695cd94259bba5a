/-
# User.ModeSwitch -- a frame received after a command exchange

`WIFI_SendCMD` takes the received bytes away from `recDataProcessing` and gives them back
when it returns, but `recState` and `data_index` are statics of that function: they stay
where the switch found them.  A frame that is received right after the exchange is
delivered exactly when the data bytes before it end outside a frame (`delivered_iff`).
-/
import EinkLiteOS.User.Resync
import EinkLiteOS.User.UsartIrq

namespace EinkLiteOS.User

open EinkLiteOS.Theory
open EinkLiteOS.Device

set_option autoImplicit false

/-- A call of `WIFI_SendCMD`, as the interrupt handler sees it: the reply is received in
command mode, and then the handler is back in data mode. -/
def exchange (reply : List UInt8) : List UartEvent :=
  listening ++ reply.map .byte ++ [.recvStop wifiRecvData]

/-- Of the bytes of a history, those that were received in data mode. -/
def dataBytes : UInt8 → List UartEvent → List UInt8
  | _, [] => []
  | mode, .byte data :: rest =>
      if mode = wifiRecvData then data :: dataBytes mode rest else dataBytes mode rest
  | _, .recvStop mode :: rest => dataBytes mode rest
  | mode, .cmdFlag _ :: rest => dataBytes mode rest

/-- The frame is received: the event is raised on its last byte, with the frame in
`g_frame_data`. -/
def Delivered (u : Uart) (f : Frame) : Prop :=
  (f.bytes.length, IrqEffect.recv (.eventWrite wifiEventRecv)) ∈ usartIrq.emissions 0 u f.bytes ∧
    (usartIrq.final u f.bytes).recv.frameData.Holds f

/-! ## What the modes do to the receiver -/

/-- In data mode the handler is `recDataProcessing`. -/
theorem handler_data {u : Uart} (mode : u.recvStop = wifiRecvData) (data : UInt8) :
    wifiUsartIrqHandler u data =
      ({ u with recv := (recDataProcessing u.recv data).1 },
        (recDataProcessing u.recv data).2.map .recv) := by
  simp only [wifiUsartIrqHandler]
  rw [if_pos mode]

/-- In any other mode it leaves the receiver alone. -/
theorem handler_recv {u : Uart} (mode : u.recvStop ≠ wifiRecvData) (data : UInt8) :
    (wifiUsartIrqHandler u data).1.recv = u.recv := by
  simp only [wifiUsartIrqHandler]
  rw [if_neg mode]
  split
  · simp only [receiveCmd]
    split
    · split <;> rfl
    · rfl
  · rfl

/-- No byte changes the mode. -/
theorem handler_recvStop (u : Uart) (data : UInt8) :
    (wifiUsartIrqHandler u data).1.recvStop = u.recvStop := by
  simp only [wifiUsartIrqHandler]
  split
  · rfl
  · split
    · simp only [receiveCmd]
      split
      · split <;> rfl
      · rfl
    · rfl

/-- The receiver has read the bytes of data mode and no others. -/
theorem recv_foldl (u : Uart) (history : List UartEvent) :
    (history.foldl UartEvent.apply u).recv =
      receiver.final u.recv (dataBytes u.recvStop history) := by
  induction history generalizing u with
  | nil => rfl
  | cons event rest ih =>
      rw [List.foldl_cons, ih]
      cases event with
      | byte data =>
          rw [UartEvent.apply, handler_recvStop, dataBytes]
          by_cases mode : u.recvStop = wifiRecvData
          · rw [if_pos mode, handler_data mode]
            rfl
          · rw [if_neg mode, handler_recv mode]
      | recvStop mode => rfl
      | cmdFlag flag => rfl

theorem dataBytes_append (mode : UInt8) (history later : List UartEvent) :
    ∃ mode', dataBytes mode (history ++ later) =
      dataBytes mode history ++ dataBytes mode' later := by
  induction history generalizing mode with
  | nil => exact ⟨mode, rfl⟩
  | cons event rest ih =>
      cases event with
      | byte data =>
          obtain ⟨mode', split⟩ := ih mode
          refine ⟨mode', ?_⟩
          rw [List.cons_append, dataBytes, dataBytes, split]
          by_cases inData : mode = wifiRecvData
          · rw [if_pos inData, if_pos inData, List.cons_append]
          · rw [if_neg inData, if_neg inData]
      | recvStop mode' => exact ih mode'
      | cmdFlag flag => exact ih mode

/-- An exchange has no data bytes in it. -/
theorem dataBytes_exchange (mode : UInt8) (reply : List UInt8) :
    dataBytes mode (exchange reply) = [] := by
  show dataBytes wifiRecvCmd (reply.map UartEvent.byte ++ [.recvStop wifiRecvData]) = []
  induction reply with
  | nil => rfl
  | cons b rest ih => exact ih

/-- After an exchange the handler is in data mode, and the receiver where the data bytes
of the history have left it. -/
theorem after_exchange (history : List UartEvent) (reply : List UInt8) :
    (after (history ++ exchange reply)).recvStop = wifiRecvData ∧
      (after (history ++ exchange reply)).recv =
        receiver.final Recv.reset (dataBytes wifiRecvData history) := by
  constructor
  · rw [exchange, ← List.append_assoc, after_append]
    rfl
  · obtain ⟨mode, split⟩ := dataBytes_append wifiRecvData history (exchange reply)
    rw [dataBytes_exchange, List.append_nil] at split
    rw [← split]
    exact recv_foldl Uart.reset _

/-! ## Delivery -/

/-- Bytes of data mode are a run of the receiver. -/
theorem final_data {u : Uart} (mode : u.recvStop = wifiRecvData) (stream : List UInt8) :
    usartIrq.final u stream = { u with recv := receiver.final u.recv stream } := by
  induction stream generalizing u with
  | nil => rfl
  | cons b rest ih =>
      have stepped : (usartIrq.step u b).1 = { u with recv := (receiver.step u.recv b).1 } :=
        congrArg Prod.fst (handler_data mode b)
      rw [Transducer.final_cons, stepped, Transducer.final_cons]
      exact ih (u := { u with recv := (receiver.step u.recv b).1 }) mode

/-- There is only one event to write. -/
theorem eventWrite_recv {c : Recv} {data : UInt8} {events : UInt32}
    (written : RecvEffect.eventWrite events ∈ (recDataProcessing c data).2) :
    events = wifiEventRecv := by
  obtain ⟨state, index, frame⟩ := c
  cases state with
  | header1 | header2 | lenLow | data =>
      simp only [recDataProcessing] at written
      split at written <;> simp at written
  | cmdType | cmd | lenHigh | crcHigh | other => simp [recDataProcessing] at written
  | crcLow =>
      simp only [recDataProcessing, recCheckCrc, List.mem_append, List.mem_map] at written
      rcases written with ⟨i, -, store⟩ | verdict
      · cases store
      · split at verdict
        · simpa using verdict
        · simp at verdict

theorem mem_announced_iff {c : Recv} {effects : List RecvEffect} {d : FrameData} :
    d ∈ announced c effects ↔ (∃ events, .eventWrite events ∈ effects) ∧ d = c.frameData := by
  simp only [announced]
  rw [List.mem_filterMap]
  constructor
  · rintro ⟨effect, member, same⟩
    cases effect with
    | eventWrite events => exact ⟨⟨events, member⟩, (Option.some.inj same).symm⟩
    | printf format args => cases same
    | storeData index => cases same
    | storeCrc index => cases same
  · rintro ⟨⟨events, member⟩, rfl⟩
    exact ⟨.eventWrite events, member, rfl⟩

/-- Delivery by the handler in data mode is an announcement by the receiver. -/
theorem delivered_iff_announced {u : Uart} (mode : u.recvStop = wifiRecvData) (f : Frame) :
    Delivered u f ↔
      ∃ d, (f.bytes.length, d) ∈ receiver.emissions 0 u.recv f.bytes ∧ d.Holds f := by
  obtain ⟨front, last, split⟩ : ∃ front last, f.bytes = front ++ [last] :=
    ⟨f.bytes.dropLast, f.bytes.getLast f.bytes_ne_nil,
      (List.dropLast_append_getLast f.bytes_ne_nil).symm⟩
  have stepped : usartIrq.step (usartIrq.final u front) last =
      ({ u with recv := (recDataProcessing (receiver.final u.recv front) last).1 },
        (recDataProcessing (receiver.final u.recv front) last).2.map .recv) := by
    rw [final_data mode]
    exact handler_data (u := { u with recv := receiver.final u.recv front }) mode last
  simp only [Delivered]
  simp only [split, Transducer.mem_emissions_last]
  rw [Transducer.final_append, Transducer.final_cons, Transducer.final_nil, stepped]
  show _ ↔ ∃ d, d ∈ announced (recDataProcessing (receiver.final u.recv front) last).1
    (recDataProcessing (receiver.final u.recv front) last).2 ∧ d.Holds f
  simp only [mem_announced_iff]
  constructor
  · rintro ⟨raised, holds⟩
    obtain ⟨effect, member, same⟩ := List.mem_map.mp raised
    obtain rfl := IrqEffect.recv.inj same
    exact ⟨_, ⟨⟨_, member⟩, rfl⟩, holds⟩
  · rintro ⟨d, ⟨⟨events, member⟩, rfl⟩, holds⟩
    obtain rfl := eventWrite_recv member
    exact ⟨List.mem_map_of_mem member, holds⟩

/-- A frame is announced on its last byte exactly when the receiver is idle before its
first. -/
theorem announced_iff_idle {c : Recv} (sound : Sound c) (f : Frame) :
    (∃ d, (f.bytes.length, d) ∈ receiver.emissions 0 c f.bytes ∧ d.Holds f) ↔
      c.recState = .header1 := by
  have collected := receiver_emissions sound 0 f.bytes
  rw [← inProgress_eq_nil sound]
  constructor
  · rintro ⟨d, member, holds⟩
    have accepted : (f.bytes.length, f.bytes) ∈
        (collector frameVerdict).emissions 0 (inProgress c) f.bytes := by
      rw [collected]
      exact List.mem_map.mpr ⟨_, member, congrArg _ ((d.holds_iff f).mp holds)⟩
    rcases Collector.emissions_whole accepted with whole | short
    · -- the frame itself fills the stream, so nothing was held before it
      change f.bytes = inProgress c ++ f.bytes.take (f.bytes.length - 0) at whole
      rw [Nat.sub_zero, List.take_length] at whole
      have length := congrArg List.length whole
      rw [List.length_append] at length
      exact List.eq_nil_of_length_eq_zero (by omega)
    · simp only at short
      omega
  · intro idle
    have once := (frame_collected 0 f).2
    rw [idle] at collected
    rw [collected, Nat.zero_add] at once
    obtain ⟨e, member, same⟩ : ∃ e ∈ receiver.emissions 0 c f.bytes,
        (e.1, e.2.bytes) = (f.bytes.length, f.bytes) := by
      rw [← List.mem_map, once]
      exact List.mem_singleton_self _
    obtain ⟨position, bytes⟩ := Prod.mk.inj same
    refine ⟨e.2, ?_, (e.2.holds_iff f).mpr bytes⟩
    rw [← position]
    exact member

theorem delivered_iff_idle (history : List UartEvent) (reply : List UInt8) (f : Frame) :
    Delivered (after (history ++ exchange reply)) f ↔
      (after (history ++ exchange reply)).recv.recState = .header1 := by
  rw [delivered_iff_announced (after_exchange history reply).1,
    announced_iff_idle (after_recvSound _)]

/-- **A frame right after a command exchange is delivered exactly when the data bytes
before the exchange end outside a frame.** -/
theorem delivered_iff (history : List UartEvent) (reply : List UInt8) (f : Frame) :
    Delivered (after (history ++ exchange reply)) f ↔
      (receiver.final Recv.reset (dataBytes wifiRecvData history)).recState = .header1 := by
  rw [delivered_iff_idle, (after_exchange history reply).2]

/-- One byte `A5` before an exchange, and the next frame is lost. -/
theorem exchange_keeps_header : ¬ ∀ history reply f,
    Delivered (after (history ++ exchange reply)) f := by
  intro all
  have delivered := all [.byte frameHeader1] (ascii "OK\r\n") oneByteFrame
  rw [delivered_iff_idle] at delivered
  revert delivered
  decide +kernel

end EinkLiteOS.User
