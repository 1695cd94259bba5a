/-
# User.HandOver -- one buffer between the interrupt and the WiFi thread

The interrupt and the WiFi thread share `g_frame_data` and one bit of the event
word.  A turn of the system is either a received byte, that is one whole call of
`recDataProcessing`, or one step of the thread: `LOS_EventRead` returning, or one
read of `ProcessFrame(&g_frame_data)`.  Of the kernel it is used that
`LOS_EventWrite` sets the bit, and that `LOS_EventRead` returns when it is set and
clears it.

`HandedOver` says that the calls of `ProcessFrame` are the announced frames, one
for one and in order, and read nothing else.  Nothing in the code keeps the
receiver out of the buffer while the thread still has to read it, and the bit does
not count: `back_to_back_frames` loses a frame.  `ThreadInTime` is what the traffic
must leave the thread, and `handed_over` that it is enough in every run.
-/
import EinkLiteOS.Theory.Runs
import EinkLiteOS.User.RecData

namespace EinkLiteOS.User

open EinkLiteOS.Theory
open EinkLiteOS.Theory.BigEndian

set_option autoImplicit false

/-! ## The reads of `ProcessFrame` -/

/-- What `ProcessFrame` reads of a frame. -/
inductive Field where
  | cmdType
  | cmd
  | dataLen
  | data (index : Nat)
  deriving DecidableEq, Repr

/-- The value read; behind the end of `data_buffer` there is none. -/
def Field.read (d : FrameData) : Field → Option UInt16
  | .cmdType => some d.cmdType.toUInt16
  | .cmd => some d.cmd.toUInt16
  | .dataLen => some d.dataLen
  | .data index => d.dataBuffer[index]?.map UInt8.toUInt16

/-- Where the thread stands: at `LOS_EventRead`, or before a read of `ProcessFrame`
and of the loop over `picData` it calls. -/
inductive Pc where
  | eventRead
  | switchType
  /-- The `default` arm reads `cmd_type` once more to print it. -/
  | printType
  | switchCmd
  | testLen
  | readTotal
  | readNum
  /-- `image_data_len = frame->data_len - 2` reads the length again. -/
  | readLen
  /-- The loop test `i < len`, and `picData[i]` behind it. -/
  | readData (i len : Nat)
  deriving DecidableEq, Repr

namespace Pc

/-- What is read next. -/
def field : Pc → Option Field
  | eventRead => none
  | switchType | printType => some .cmdType
  | switchCmd => some .cmd
  | testLen | readLen => some .dataLen
  | readTotal => some (.data 0)
  | readNum => some (.data 1)
  | readData i len => if i < len then some (.data (2 + i)) else none

/-- Where the read leads, with `d` in the buffer. -/
def next (d : FrameData) : Pc → Pc
  | eventRead => switchType
  | switchType => if d.cmdType = cmdTypeImage then switchCmd else printType
  | printType => eventRead
  | switchCmd => if d.cmd = cmdImageTransfer then testLen else eventRead
  | testLen => if 2 < d.dataLen then readTotal else eventRead
  | readTotal => readNum
  | readNum => readLen
  | readLen => readData 0 (d.dataLen - 2).toNat
  | readData i len => readData (i + 1) len

end Pc

/-! ## The shared buffer and its two users -/

/-- A read, with the number of the `ProcessFrame` call that made it. -/
structure Read where
  call : Nat
  field : Field
  value : Option UInt16
  deriving DecidableEq, Repr

/-- The receiver's variables with the shared buffer, the `WIFI_EVENT_RECV` bit, and
the thread; then the history: the buffer at every event written, the number of
`ProcessFrame` calls begun, and their reads. -/
structure HandOver where
  recv : Recv
  event : Bool
  pc : Pc
  announced : List FrameData
  calls : Nat
  reads : List Read
  deriving DecidableEq

/-- After reset, with the thread waiting. -/
def HandOver.init : HandOver := ⟨Recv.reset, false, .eventRead, [], 0, []⟩

/-- Whose turn it is. -/
inductive Turn where
  | irq (data : UInt8)
  | thread
  deriving DecidableEq, Repr

/-- Some effect of the call writes the event. -/
def writesEvent (effects : List RecvEffect) : Bool :=
  effects.any fun
    | .eventWrite _ => true
    | _ => false

/-- One step of the thread. -/
def threadStep (s : HandOver) : Option HandOver :=
  match s.pc with
  | .eventRead =>
      if s.event then some { s with event := false, pc := .switchType, calls := s.calls + 1 }
      else none
  | pc =>
      match pc.field with
      | some field =>
          some { s with
            pc := pc.next s.recv.frameData
            reads := s.reads ++ [⟨s.calls - 1, field, field.read s.recv.frameData⟩] }
      | none => some { s with pc := .eventRead }

/-- One turn of the system. -/
def turn (s : HandOver) : Turn → Option HandOver
  | .irq data =>
      let (next, effects) := recDataProcessing s.recv data
      some { s with
        recv := next
        event := s.event || writesEvent effects
        announced := s.announced ++ announced next effects }
  | .thread => threadStep s

/-- **The hand-over is exactly once, in order and intact**: call `i` of
`ProcessFrame` processes the announced frame number `processes i`. -/
def HandedOver (s : HandOver) : Prop :=
  ∃ processes : Nat → Nat,
    (∀ i < s.calls, processes i < s.announced.length) ∧
    (∀ i j, i < j → j < s.calls → processes i < processes j) ∧
    (∀ i < s.calls, ∀ n < processes i, ∃ j < i, processes j = n) ∧
    ∀ r ∈ s.reads, ∃ frame, s.announced[processes r.call]? = some frame ∧
      frame.crcReceived = crc16Calculate frame.covered ∧ r.value = r.field.read frame

/-- The bytes received in a run. -/
def receivedBytes (turns : List Turn) : List UInt8 :=
  turns.filterMap fun
    | .irq data => some data
    | .thread => none

theorem threadStep_shares {s t : HandOver} (stepped : threadStep s = some t) :
    t.recv = s.recv ∧ t.announced = s.announced := by
  simp only [threadStep] at stepped
  split at stepped
  · split at stepped
    · obtain rfl := Option.some.inj stepped
      exact ⟨rfl, rfl⟩
    · cases stepped
  · split at stepped <;>
      · obtain rfl := Option.some.inj stepped
        exact ⟨rfl, rfl⟩

/-- However the turns interleave, what is announced is what the receiver announces
of the bytes alone. -/
theorem announced_received {guard : HandOver → Turn → Prop} {s t : HandOver} {turns : List Turn}
    (run : Run turn guard s turns t) :
    t.recv = receiver.final s.recv (receivedBytes turns) ∧
      t.announced = s.announced ++ receiver.trace s.recv (receivedBytes turns) := by
  induction run with
  | done s => exact ⟨rfl, (List.append_nil _).symm⟩
  | @move s next t label turns _ enabled _ ih =>
      cases label with
      | irq data =>
          obtain rfl := Option.some.inj enabled
          rw [ih.1, ih.2, List.append_assoc]
          exact ⟨rfl, rfl⟩
      | thread =>
          obtain ⟨recv, announced⟩ := threadStep_shares enabled
          rw [ih.1, ih.2, recv, announced]
          exact ⟨rfl, rfl⟩

/-! ## What the thread still has to read -/

section Reads

variable (d : FrameData)

/-- The image bytes of a packet. -/
def imageReads : List Field := (List.range' 2 (d.dataLen - 2).toNat).map .data

/-- The two packet numbers, the length again, and the image bytes. -/
def packetReads : List Field := .data 0 :: .data 1 :: .dataLen :: imageReads d

def lenReads : List Field := .dataLen :: if 2 < d.dataLen then packetReads d else []

def cmdReads : List Field := .cmd :: if d.cmd = cmdImageTransfer then lenReads d else []

/-- Everything `ProcessFrame` reads of a frame, in order. -/
def frameReads : List Field :=
  .cmdType :: if d.cmdType = cmdTypeImage then cmdReads d else [.cmdType]

/-- The reads from `pc` on, of a thread that processes `d`. -/
def rest : Pc → List Field
  | .eventRead => []
  | .switchType => frameReads d
  | .printType => [.cmdType]
  | .switchCmd => cmdReads d
  | .testLen => lenReads d
  | .readTotal => packetReads d
  | .readNum => .data 1 :: .dataLen :: imageReads d
  | .readLen => .dataLen :: imageReads d
  | .readData i len => (List.range' (2 + i) (len - i)).map .data

end Reads

/-- The fields a frame that is announced, or being processed, is still to be read
from. -/
def unread (s : HandOver) : List Field :=
  (if s.event then (s.announced.getLast?.map frameReads).getD [] else []) ++
    (s.announced[s.calls - 1]?.map (rest · s.pc)).getD []

/-- The field a received byte is stored to, and the field's new value. -/
def stored (c : Recv) (data : UInt8) : Option (Field × UInt16) :=
  match c.recState with
  | .cmdType => some (.cmdType, data.toUInt16)
  | .cmd => some (.cmd, data.toUInt16)
  | .lenHigh => some (.dataLen, data.toUInt16 <<< 8)
  | .lenLow => some (.dataLen, c.frameData.dataLen ||| data.toUInt16)
  | .data =>
      if c.dataIndex < c.frameData.dataLen then
        some (.data c.dataIndex.toNat, data.toUInt16)
      else none
  | _ => none

/-- The byte is the last one of a frame whose checksum is right. -/
def completes (c : Recv) (data : UInt8) : Prop :=
  c.recState = .crcLow ∧
    c.frameData.crcReceived ||| data.toUInt16 = crc16Calculate c.frameData.covered

instance (c : Recv) (data : UInt8) : Decidable (completes c data) :=
  inferInstanceAs (Decidable (_ ∧ _))

/-- The thread is in time for this byte: the byte changes no field still to be read,
and if it completes a frame, the event of the frame before has been consumed. -/
def ThreadInTime (s : HandOver) : Turn → Prop
  | .irq data =>
      (∀ p ∈ stored s.recv data, p.1 ∈ unread s → p.1.read s.recv.frameData = some p.2) ∧
        (completes s.recv data → s.event = false)
  | .thread => True

instance (s : HandOver) : (t : Turn) → Decidable (ThreadInTime s t)
  | .irq data => inferInstanceAs (Decidable ((∀ p ∈ stored s.recv data, _) ∧ _))
  | .thread => inferInstanceAs (Decidable True)

/-! ## One read -/

theorem read_cmdType {g d : FrameData} (same : Field.cmdType.read g = Field.cmdType.read d) :
    g.cmdType = d.cmdType :=
  UInt8.toUInt16_inj.mp (Option.some.inj same)

theorem read_cmd {g d : FrameData} (same : Field.cmd.read g = Field.cmd.read d) :
    g.cmd = d.cmd :=
  UInt8.toUInt16_inj.mp (Option.some.inj same)

theorem read_dataLen {g d : FrameData} (same : Field.dataLen.read g = Field.dataLen.read d) :
    g.dataLen = d.dataLen :=
  Option.some.inj same

/-- The thread goes where it would go if it read the frame itself, once the field it
reads is the frame's. -/
theorem next_congr {g d : FrameData} {pc : Pc} {field : Field} (reads : pc.field = some field)
    (same : field.read g = field.read d) : pc.next g = pc.next d := by
  cases pc with
  | eventRead => cases reads
  | switchType =>
      obtain rfl := Option.some.inj reads
      rw [Pc.next, Pc.next, read_cmdType same]
  | printType => rfl
  | switchCmd =>
      obtain rfl := Option.some.inj reads
      rw [Pc.next, Pc.next, read_cmd same]
  | testLen =>
      obtain rfl := Option.some.inj reads
      rw [Pc.next, Pc.next, read_dataLen same]
  | readTotal => rfl
  | readNum => rfl
  | readLen =>
      obtain rfl := Option.some.inj reads
      rw [Pc.next, Pc.next, read_dataLen same]
  | readData i len => rfl

/-- A read is the first of those that are left, and leaves the others. -/
theorem rest_eq_cons {pc : Pc} {field : Field} (d : FrameData) (reads : pc.field = some field) :
    rest d pc = field :: rest d (pc.next d) := by
  cases pc with
  | eventRead => cases reads
  | switchType =>
      obtain rfl := Option.some.inj reads
      rw [rest, frameReads, Pc.next]
      split <;> rfl
  | printType =>
      obtain rfl := Option.some.inj reads
      rfl
  | switchCmd =>
      obtain rfl := Option.some.inj reads
      rw [rest, cmdReads, Pc.next]
      split <;> rfl
  | testLen =>
      obtain rfl := Option.some.inj reads
      rw [rest, lenReads, Pc.next]
      split <;> rfl
  | readTotal =>
      obtain rfl := Option.some.inj reads
      rfl
  | readNum =>
      obtain rfl := Option.some.inj reads
      rfl
  | readLen =>
      obtain rfl := Option.some.inj reads
      rfl
  | readData i len =>
      rw [Pc.field] at reads
      split at reads
      case isTrue inside =>
        obtain rfl := Option.some.inj reads
        obtain ⟨left, more⟩ : ∃ left, len - i = left + 1 := ⟨len - i - 1, by omega⟩
        have fewer : len - (i + 1) = left := by omega
        rw [rest, Pc.next, rest, more, fewer, List.range'_succ, List.map_cons]
        rfl
      case isFalse => cases reads

/-! ## One received byte -/

/-- A store of the byte that is there already changes nothing, and any other store is
elsewhere. -/
theorem getElem_store {n : Nat} (buffer : Vector UInt8 n) {index i : Nat} {data : UInt8}
    (quiet : index = i → buffer[i]?.map UInt8.toUInt16 = some data.toUInt16) :
    (buffer.setIfInBounds index data)[i]?.map UInt8.toUInt16 = buffer[i]?.map UInt8.toUInt16 := by
  by_cases here : index = i
  · have same := quiet here
    obtain ⟨old, present, -⟩ := Option.map_eq_some_iff.mp same
    obtain ⟨inBounds, -⟩ := Vector.getElem?_eq_some_iff.mp present
    rw [same, here, Vector.getElem?_setIfInBounds_self, if_pos inBounds]
    rfl
  · rw [Vector.getElem?_setIfInBounds_ne here]

/-- A byte that changes no field still to be read leaves all of them alone. -/
theorem read_irq {c : Recv} {data : UInt8} {field : Field}
    (quiet : ∀ p ∈ stored c data, p.1 = field → field.read c.frameData = some p.2) :
    field.read (recDataProcessing c data).1.frameData = field.read c.frameData := by
  obtain ⟨state, index, frame⟩ := c
  cases state with
  | header1 =>
      simp only [recDataProcessing]
      split <;> rfl
  | header2 =>
      simp only [recDataProcessing]
      split <;> rfl
  | cmdType =>
      cases field with
      | cmdType => exact (quiet _ rfl rfl).symm
      | cmd => rfl
      | dataLen => rfl
      | data i => rfl
  | cmd =>
      cases field with
      | cmdType => rfl
      | cmd => exact (quiet _ rfl rfl).symm
      | dataLen => rfl
      | data i => rfl
  | lenHigh =>
      cases field with
      | cmdType => rfl
      | cmd => rfl
      | dataLen => exact (quiet _ rfl rfl).symm
      | data i => rfl
  | lenLow =>
      simp only [recDataProcessing]
      cases field with
      | cmdType => split <;> rfl
      | cmd => split <;> rfl
      | dataLen =>
          have same := quiet _ rfl rfl
          split <;> exact same.symm
      | data i => split <;> rfl
  | data =>
      simp only [recDataProcessing]
      split
      case isTrue inside =>
        cases field with
        | cmdType => rfl
        | cmd => rfl
        | dataLen => rfl
        | data i =>
            apply getElem_store
            intro here
            exact quiet (.data i, data.toUInt16) (by simp [stored, inside, here]) rfl
      case isFalse => rfl
  | crcHigh => cases field <;> rfl
  | crcLow => cases field <;> rfl
  | other raw => rfl

theorem writesEvent_eq (c : Recv) (effects : List RecvEffect) :
    writesEvent effects = !(announced c effects).isEmpty := by
  induction effects with
  | nil => rfl
  | cons e effects ih =>
      cases e with
      | eventWrite events => rfl
      | printf format args => exact ih
      | storeData index => exact ih
      | storeCrc index => exact ih

/-- A byte announces the buffer if it completes a frame, and nothing otherwise. -/
theorem announced_irq (c : Recv) (data : UInt8) :
    announced (recDataProcessing c data).1 (recDataProcessing c data).2 =
      if completes c data then [(recDataProcessing c data).1.frameData] else [] := by
  obtain ⟨state, index, frame⟩ := c
  cases state with
  | crcLow =>
      simp only [recDataProcessing, announced_recCheckCrc, completes, true_and]
      rfl
  | header1 =>
      simp only [recDataProcessing, completes]
      split <;> simp [announced]
  | header2 =>
      simp only [recDataProcessing, completes]
      split <;> simp [announced]
  | lenLow =>
      simp only [recDataProcessing, completes]
      split <;> simp [announced]
  | data =>
      simp only [recDataProcessing, completes]
      split <;> simp [announced]
  | cmdType => simp [recDataProcessing, completes, announced]
  | cmd => simp [recDataProcessing, completes, announced]
  | lenHigh => simp [recDataProcessing, completes, announced]
  | crcHigh => simp [recDataProcessing, completes, announced]
  | other raw => simp [recDataProcessing, completes, announced]

/-! ## The run -/

/-- What every run keeps in which the thread is in time. -/
structure InTime (s : HandOver) : Prop where
  /-- Every announced frame is being processed or has been, or is the one the event
  is about. -/
  counted : s.announced.length = s.calls + s.event.toNat
  busy : s.pc ≠ .eventRead → 0 < s.calls
  checked : ∀ d ∈ s.announced, d.crcReceived = crc16Calculate d.covered
  intact : ∀ r ∈ s.reads, ∃ d, s.announced[r.call]? = some d ∧ r.value = r.field.read d
  /-- The frame the event is about is in the buffer. -/
  pending : s.event = true → ∀ d, s.announced.getLast? = some d →
    ∀ field ∈ frameReads d, field.read s.recv.frameData = field.read d
  /-- What is left of the frame being processed is in the buffer. -/
  current : ∀ d, s.announced[s.calls - 1]? = some d →
    ∀ field ∈ rest d s.pc, field.read s.recv.frameData = field.read d

theorem init_inTime : InTime HandOver.init where
  counted := rfl
  busy := fun busy => absurd rfl busy
  checked := by simp [HandOver.init]
  intact := by simp [HandOver.init]
  pending := by simp [HandOver.init]
  current := by simp [HandOver.init]

/-- `LOS_EventRead` returns: the pending frame becomes the current one. -/
theorem eventRead_inTime {s : HandOver} (inTime : InTime s) (event : s.event = true) :
    InTime { s with event := false, pc := .switchType, calls := s.calls + 1 } := by
  have counted := inTime.counted
  rw [event] at counted
  refine ⟨counted, fun _ => Nat.succ_pos _, inTime.checked, inTime.intact, nofun, ?_⟩
  intro d found field member
  rw [Nat.add_sub_cancel] at found
  refine inTime.pending event d ?_ field member
  rw [List.getLast?_eq_getElem?, counted]
  exact found

/-- `ProcessFrame` reads one field: it is the current frame's. -/
theorem read_inTime {s : HandOver} (inTime : InTime s) {field : Field}
    (reads : s.pc.field = some field) :
    InTime { s with
      pc := s.pc.next s.recv.frameData
      reads := s.reads ++ [⟨s.calls - 1, field, field.read s.recv.frameData⟩] } := by
  have busy : 0 < s.calls := inTime.busy fun waiting => by rw [waiting] at reads; cases reads
  have counted := inTime.counted
  obtain ⟨d, found⟩ : ∃ d, s.announced[s.calls - 1]? = some d :=
    ⟨_, List.getElem?_eq_getElem (by omega)⟩
  have left := rest_eq_cons d reads
  have same : field.read s.recv.frameData = field.read d :=
    inTime.current d found field (by rw [left]; exact List.mem_cons_self)
  refine ⟨counted, fun _ => busy, inTime.checked, ?_, inTime.pending, ?_⟩
  · intro r member
    rcases List.mem_append.mp member with before | now
    · exact inTime.intact r before
    · obtain rfl := List.mem_singleton.mp now
      exact ⟨d, found, same⟩
  · intro d' found' field' member
    obtain rfl := Option.some.inj (found.symm.trans found')
    refine inTime.current d found field' ?_
    rw [left, ← next_congr reads same]
    exact List.mem_cons_of_mem _ member

/-- The loop over the image bytes ends. -/
theorem return_inTime {s : HandOver} (inTime : InTime s) : InTime { s with pc := .eventRead } :=
  ⟨inTime.counted, fun waiting => absurd rfl waiting, inTime.checked, inTime.intact,
    inTime.pending, nofun⟩

theorem thread_inTime {s t : HandOver} (inTime : InTime s) (stepped : threadStep s = some t) :
    InTime t := by
  simp only [threadStep] at stepped
  split at stepped
  case h_1 waiting =>
    split at stepped
    case isTrue event =>
      obtain rfl := Option.some.inj stepped
      exact eventRead_inTime inTime event
    case isFalse => cases stepped
  case h_2 =>
    split at stepped
    case h_1 field reads =>
      obtain rfl := Option.some.inj stepped
      exact read_inTime inTime reads
    case h_2 =>
      obtain rfl := Option.some.inj stepped
      exact return_inTime inTime

/-- A byte the thread is in time for leaves everything still to be read alone. -/
theorem unread_irq {s : HandOver} {data : UInt8} (allowed : ThreadInTime s (.irq data))
    {field : Field} (member : field ∈ unread s) :
    field.read (recDataProcessing s.recv data).1.frameData = field.read s.recv.frameData := by
  apply read_irq
  intro p store here
  subst here
  exact allowed.1 p store member

theorem mem_unread_pending {s : HandOver} (event : s.event = true) {d : FrameData}
    (last : s.announced.getLast? = some d) {field : Field} (member : field ∈ frameReads d) :
    field ∈ unread s := by
  simp only [unread, event, if_true, last, Option.map_some, Option.getD_some]
  exact List.mem_append_left _ member

theorem mem_unread_current {s : HandOver} {d : FrameData}
    (found : s.announced[s.calls - 1]? = some d) {field : Field} (member : field ∈ rest d s.pc) :
    field ∈ unread s := by
  simp only [unread, found, Option.map_some, Option.getD_some]
  exact List.mem_append_right _ member

/-- A received byte, with the frame it completes if it does. -/
theorem turn_irq (s : HandOver) (data : UInt8) :
    turn s (.irq data) = some { s with
      recv := (recDataProcessing s.recv data).1
      event := s.event || decide (completes s.recv data)
      announced := s.announced ++
        if completes s.recv data then [(recDataProcessing s.recv data).1.frameData] else [] } := by
  have event : writesEvent (recDataProcessing s.recv data).2 =
      decide (completes s.recv data) := by
    rw [writesEvent_eq (recDataProcessing s.recv data).1, announced_irq]
    by_cases complete : completes s.recv data
    · simp only [complete, if_true, List.isEmpty_cons, Bool.not_false, decide_true]
    · simp only [complete, if_false, List.isEmpty_nil, Bool.not_true, decide_false]
  rw [← announced_irq, ← event]
  rfl

theorem completes_checked {c : Recv} {data : UInt8} (complete : completes c data) :
    (recDataProcessing c data).1.frameData.crcReceived =
      crc16Calculate (recDataProcessing c data).1.frameData.covered := by
  obtain ⟨state, index, frame⟩ := c
  obtain ⟨rfl, sum⟩ : state = .crcLow ∧ _ := complete
  exact sum

/-- A byte that completes no frame. -/
theorem byte_inTime {s : HandOver} {data : UInt8} (inTime : InTime s)
    (allowed : ThreadInTime s (.irq data)) :
    InTime { s with recv := (recDataProcessing s.recv data).1 } := by
  refine ⟨inTime.counted, inTime.busy, inTime.checked, inTime.intact, ?_, ?_⟩
  · intro event d last field member
    rw [unread_irq allowed (mem_unread_pending event last member)]
    exact inTime.pending event d last field member
  · intro d found field member
    rw [unread_irq allowed (mem_unread_current found member)]
    exact inTime.current d found field member

/-- The frame in the buffer is announced, with no event pending. -/
theorem announce_inTime {s : HandOver} (inTime : InTime s) (quiet : s.event = false)
    (checked : s.recv.frameData.crcReceived = crc16Calculate s.recv.frameData.covered) :
    InTime { s with event := true, announced := s.announced ++ [s.recv.frameData] } := by
  have counted : s.announced.length = s.calls := by rw [inTime.counted, quiet]; rfl
  refine ⟨?_, inTime.busy, ?_, ?_, ?_, ?_⟩
  · rw [List.length_append, counted]
    rfl
  · intro d member
    rcases List.mem_append.mp member with before | now
    · exact inTime.checked d before
    · obtain rfl := List.mem_singleton.mp now
      exact checked
  · intro r member
    obtain ⟨d, found, value⟩ := inTime.intact r member
    refine ⟨d, ?_, value⟩
    rw [List.getElem?_append_left (List.getElem?_eq_some_iff.mp found).1]
    exact found
  · intro _ d last field _
    rw [List.getLast?_concat] at last
    rw [Option.some.inj last]
  · intro d found field member
    by_cases busy : 0 < s.calls
    · have inside : s.calls - 1 < s.announced.length := by omega
      rw [List.getElem?_append_left inside] at found
      exact inTime.current d found field member
    · have waiting : s.pc = .eventRead := not_not.mp fun running => busy (inTime.busy running)
      rw [show rest d s.pc = [] by rw [waiting]; rfl] at member
      cases member

theorem irq_inTime {s t : HandOver} {data : UInt8} (inTime : InTime s)
    (allowed : ThreadInTime s (.irq data)) (stepped : turn s (.irq data) = some t) : InTime t := by
  rw [turn_irq] at stepped
  obtain rfl := Option.some.inj stepped
  have received := byte_inTime inTime allowed
  by_cases complete : completes s.recv data
  · simp only [complete, if_true, decide_true, Bool.or_true]
    exact announce_inTime received (allowed.2 complete) (completes_checked complete)
  · simp only [complete, if_false, decide_false, Bool.or_false, List.append_nil]
    exact received

/-- One turn for which the thread is in time. -/
theorem turn_inTime {s t : HandOver} {label : Turn} (inTime : InTime s)
    (allowed : ThreadInTime s label) (stepped : turn s label = some t) : InTime t := by
  cases label with
  | irq data => exact irq_inTime inTime allowed stepped
  | thread => exact thread_inTime inTime stepped

/-- Call `i` processes frame `i`. -/
theorem InTime.handedOver {s : HandOver} (inTime : InTime s) : HandedOver s := by
  have counted := inTime.counted
  refine ⟨id, fun i below => ?_, fun i j before _ => before, fun i _ n before =>
    ⟨n, before, rfl⟩, fun r member => ?_⟩
  · simp only [id]
    omega
  · obtain ⟨d, found, value⟩ := inTime.intact r member
    exact ⟨d, found, inTime.checked d (List.mem_of_getElem? found), value⟩

/-- **A thread in time is handed every frame once, in order and intact**, whatever is
received and however the turns interleave. -/
theorem handed_over (turns : List Turn) (s : HandOver)
    (run : Run turn ThreadInTime HandOver.init turns s) : HandedOver s :=
  (run.invariant (fun _ _ _ inTime allowed stepped => turn_inTime inTime allowed stepped)
    init_inTime).handedOver

/-- Packets 1 and 2 of a two-packet image. -/
def twoPacketImage : List UInt8 :=
  [0xA5, 0x5A, 0xD1, 0x01, 0x00, 0x03, 0x02, 0x01, 0x55, 0xF7, 0xBB,
    0xA5, 0x5A, 0xD1, 0x01, 0x00, 0x03, 0x02, 0x02, 0xAA, 0x47, 0xFB]

/-- Packet 2 comes in while the thread reads packet 1, each field of it after the thread has
read the old one; then the thread reads packet 2. -/
def readInTime : List Turn :=
  (twoPacketImage.take 11).map .irq ++ List.replicate 2 .thread ++
    [.irq 0xA5, .irq 0x5A, .irq 0xD1, .thread, .irq 0x01] ++ List.replicate 4 .thread ++
      [.irq 0x00, .irq 0x03, .thread] ++ (twoPacketImage.drop 17).map .irq ++
        List.replicate 10 .thread

/-- The state after `readInTime`. -/
def handedTwoPackets : HandOver :=
  (perform turn ThreadInTime HandOver.init readInTime).get (by decide +kernel)

theorem two_packets_handed_over : HandedOver handedTwoPackets :=
  handed_over readInTime handedTwoPackets (run_of_perform (Option.some_get _).symm)

/-- Both packets are received before the thread runs. -/
def readLate : List Turn := twoPacketImage.map .irq ++ List.replicate 6 .thread

def overrun : HandOver :=
  (perform turn unguarded HandOver.init readLate).get (by decide +kernel)

/-- Packet 1 is lost: the only call of `ProcessFrame` reads packet number 2, though
two frames were announced. -/
theorem back_to_back_frames :
    ¬ ∀ (turns : List Turn) (s : HandOver), Run turn unguarded HandOver.init turns s →
      HandedOver s := by
  intro all
  obtain ⟨processes, -, -, noSkip, intact⟩ :=
    all readLate overrun (run_of_perform (Option.some_get _).symm)
  have first : processes 0 = 0 := by
    by_contra later
    obtain ⟨j, before, -⟩ := noSkip 0 (by decide +kernel) 0 (Nat.pos_of_ne_zero later)
    exact Nat.not_lt_zero j before
  obtain ⟨frame, found, -, value⟩ := intact ⟨0, .data 1, some 2⟩ (by decide +kernel)
  rw [first] at found
  have number : overrun.announced[0]?.map (Field.data 1).read = some (some 1) := by decide +kernel
  rw [found, Option.map_some, ← value] at number
  exact absurd number (by decide)

end EinkLiteOS.User
