/-
# User.ThreadReads -- what the WiFi thread does with what it has read

`User.HandOver` is about the reads of `ProcessFrame`, one by one, with bytes coming in
between.  The panel sees of a call what follows from the values it has read: `readOps`.

In a run in which the thread is in time these are the values of the frames that were
announced, and of all of them once the thread waits again: the panel has been sent what
`ProcessFrame` sends for these frames, in their order (`threadOps_eq`), and what is announced
is what the receiver makes of the bytes (`announced_received`).  Such a run there is for every
stream (`exists_inTime`).
-/
import EinkLiteOS.User.HandOver
import EinkLiteOS.User.ThreadWifi

namespace EinkLiteOS.User

open EinkLiteOS.Theory
open EinkLiteOS.Device

set_option autoImplicit false

/-! ## From reads to operations -/

/-- What a call of `ProcessFrame` does to the panel, from the values it has read: type,
command and length, the packet's numbers, the length again, and the image bytes. -/
def readOps : List (Option UInt16) → List PanelOp
  | _cmdType :: _cmd :: _dataLen :: some totalPackets :: some packetNum :: _len :: bytes =>
      packetOps totalPackets.toUInt8 packetNum.toUInt8
        (bytes.filterMap (Option.map UInt16.toUInt8))
  | _ => []

/-- What the thread has done to the panel, call by call. -/
def threadOps (s : HandOver) : List PanelOp :=
  (List.range s.calls).flatMap fun i =>
    readOps ((s.reads.filter fun r => r.call = i).map Read.value)

theorem filterMap_range' {α : Type} (l : List α) (a n : Nat) :
    (List.range' a n).filterMap (fun i => l[i]?) = (l.drop a).take n := by
  induction n generalizing a with
  | zero => simp
  | succ n ih =>
      rw [List.range'_succ]
      by_cases inside : a < l.length
      · rw [List.filterMap_cons_some (List.getElem?_eq_getElem inside), ih,
          List.drop_eq_getElem_cons inside, List.take_succ_cons]
      · have none : l[a]? = none := List.getElem?_eq_none (Nat.le_of_not_lt inside)
        have here : l.drop a = [] := List.drop_of_length_le (Nat.le_of_not_lt inside)
        have behind : l.drop (a + 1) = [] := List.drop_of_length_le (by omega)
        rw [List.filterMap_cons_none none, ih, here, behind, List.take_nil, List.take_nil]

/-- The image bytes are read from the buffer, behind the packet's numbers. -/
theorem read_imageReads (d : FrameData) :
    ((imageReads d).map (Field.read d)).filterMap (Option.map UInt16.toUInt8) =
      (d.dataBuffer.toList.drop 2).take (d.dataLen - 2).toNat := by
  rw [← filterMap_range', imageReads, List.map_map, List.filterMap_map]
  congr 1
  funext i
  show ((d.dataBuffer[i]?.map UInt8.toUInt16).map UInt16.toUInt8) = d.dataBuffer.toList[i]?
  rw [Vector.getElem?_toList, Option.map_map]
  cases d.dataBuffer[i]? with
  | none => rfl
  | some data => exact congrArg some (UInt8.toUInt8_toUInt16 data)

/-- **A call that reads a frame does what `ProcessFrame` does with it.** -/
theorem readOps_frameReads (d : FrameData) (lastPacket : UInt8) :
    readOps ((frameReads d).map (Field.read d)) = panelOps (processFrame lastPacket d).2 := by
  by_cases isImage : d.cmdType = cmdTypeImage
  · by_cases isTransfer : d.cmd = cmdImageTransfer
    · by_cases long : 2 < d.dataLen
      · have first : d.dataBuffer[0]? = some d.dataBuffer[0] := Vector.getElem?_eq_getElem _
        have second : d.dataBuffer[1]? = some d.dataBuffer[1] := Vector.getElem?_eq_getElem _
        rw [frameReads, if_pos isImage, cmdReads, if_pos isTransfer, lenReads, if_pos long,
          packetReads, processFrame, if_pos isImage, if_pos isTransfer, if_pos long,
          panelOps_processImageData, ← read_imageReads d]
        simp only [List.map_cons, Field.read, first, second, Option.map_some, readOps,
          UInt8.toUInt8_toUInt16]
      · simp [frameReads, cmdReads, lenReads, processFrame, isImage, isTransfer, long, readOps]
    · simp [frameReads, cmdReads, processFrame, isImage, isTransfer, readOps]
  · simp [frameReads, processFrame, isImage, readOps]

/-! ## The reads of a run -/

/-- The reads of call `i`, if it finds `d` in the buffer. -/
def readsOf (i : Nat) (d : FrameData) (fields : List Field) : List Read :=
  fields.map fun field => ⟨i, field, field.read d⟩

/-- The reads of the calls from `i` on, one for each of the frames. -/
def allReads (i : Nat) : List FrameData → List Read
  | [] => []
  | d :: rest => readsOf i d (frameReads d) ++ allReads (i + 1) rest

theorem allReads_append (i : Nat) (front back : List FrameData) :
    allReads i (front ++ back) = allReads i front ++ allReads (i + front.length) back := by
  induction front generalizing i with
  | nil => rfl
  | cons d rest ih =>
      rw [List.cons_append, allReads, allReads, ih, List.append_assoc, List.length_cons,
        Nat.add_right_comm i 1, Nat.add_assoc]

theorem call_of_mem_allReads {i : Nat} {frames : List FrameData} {r : Read}
    (member : r ∈ allReads i frames) : i ≤ r.call := by
  induction frames generalizing i with
  | nil => cases member
  | cons d rest ih =>
      rcases List.mem_append.mp member with here | later
      · obtain ⟨field, -, rfl⟩ := List.mem_map.mp here
        exact Nat.le_refl i
      · exact Nat.le_of_succ_le (ih later)

/-- Call by call the operations are those of the frames. -/
theorem ops_allReads (lastPacket : UInt8) (frames : List FrameData) (i : Nat) :
    ((List.range' i frames.length).flatMap fun j =>
        readOps (((allReads i frames).filter fun r => r.call = j).map Read.value)) =
      frames.flatMap fun d => panelOps (processFrame lastPacket d).2 := by
  induction frames generalizing i with
  | nil => rfl
  | cons d rest ih =>
      have first : (allReads i (d :: rest)).filter (fun r => r.call = i) =
          readsOf i d (frameReads d) := by
        rw [allReads, List.filter_append, List.filter_eq_self.mpr, List.filter_eq_nil_iff.mpr,
          List.append_nil]
        · intro r member
          have later := call_of_mem_allReads member
          simp only [decide_eq_true_eq]
          omega
        · intro r member
          obtain ⟨field, -, rfl⟩ := List.mem_map.mp member
          simp
      have others : ∀ j ∈ List.range' (i + 1) rest.length,
          (allReads i (d :: rest)).filter (fun r => r.call = j) =
            (allReads (i + 1) rest).filter fun r => r.call = j := by
        intro j inside
        have later := (List.mem_range'_1.mp inside).1
        rw [allReads, List.filter_append, List.filter_eq_nil_iff.mpr, List.nil_append]
        intro r member
        obtain ⟨field, -, rfl⟩ := List.mem_map.mp member
        simp only [decide_eq_true_eq]
        omega
      have values : (readsOf i d (frameReads d)).map Read.value =
          (frameReads d).map (Field.read d) := by
        rw [readsOf, List.map_map]
        rfl
      rw [List.length_cons, List.range'_succ, List.flatMap_cons, first, values,
        readOps_frameReads d lastPacket, List.flatMap_cons, ← ih (i + 1)]
      congr 1
      exact List.flatMap_congr fun j inside => by rw [others j inside]

/-- What the last of some calls, which stands at `pc`, has left to read of its frame. -/
def leftReads (announced : List FrameData) (calls : Nat) (pc : Pc) : List Read :=
  (announced[calls - 1]?.map fun d => readsOf (calls - 1) d (rest d pc)).getD []

/-- With what is left to read, the reads are those of the frames so far, one for one. -/
def Complete (s : HandOver) : Prop :=
  s.reads ++ leftReads s.announced s.calls s.pc = allReads 0 (s.announced.take s.calls)

theorem leftReads_eq {announced : List FrameData} {calls : Nat} {d : FrameData}
    (found : announced[calls - 1]? = some d) (pc : Pc) :
    leftReads announced calls pc = readsOf (calls - 1) d (rest d pc) := by
  rw [leftReads, found]
  rfl

/-- There is nothing left to read where no frame has a read left. -/
theorem leftReads_nil (announced : List FrameData) (calls : Nat) {pc : Pc}
    (ended : ∀ d, rest d pc = []) : leftReads announced calls pc = [] := by
  rw [leftReads]
  cases announced[calls - 1]? with
  | none => rfl
  | some d => rw [Option.map_some, ended]; rfl

/-- A thread that waits has nothing left to read. -/
theorem leftReads_eventRead (announced : List FrameData) (calls : Nat) :
    leftReads announced calls .eventRead = [] := leftReads_nil announced calls fun _ => rfl

theorem eventRead_complete {s : HandOver} (inTime : InTime s) (complete : Complete s)
    (waiting : s.pc = .eventRead) (event : s.event = true) :
    Complete { s with event := false, pc := .switchType, calls := s.calls + 1 } := by
  have counted := inTime.counted
  rw [event] at counted
  have inside : s.calls < s.announced.length := by
    rw [counted]
    exact Nat.lt_succ_self s.calls
  have taken : (s.announced.take s.calls).length = s.calls := by
    rw [List.length_take]
    omega
  rw [Complete, waiting, leftReads_eventRead, List.append_nil] at complete
  have found : s.announced[s.calls + 1 - 1]? = some s.announced[s.calls] := by simp [inside]
  rw [Complete, leftReads_eq found, complete, List.take_succ_eq_append_getElem inside,
    allReads_append, taken, Nat.zero_add, Nat.add_sub_cancel, allReads, allReads, List.append_nil]
  rfl

theorem read_complete {s : HandOver} (inTime : InTime s) (complete : Complete s) {field : Field}
    (reads : s.pc.field = some field) :
    Complete { s with
      pc := s.pc.next s.recv.frameData
      reads := s.reads ++ [⟨s.calls - 1, field, field.read s.recv.frameData⟩] } := by
  have busy : 0 < s.calls := inTime.busy fun waiting => by rw [waiting] at reads; cases reads
  have counted := inTime.counted
  obtain ⟨d, found⟩ : ∃ d, s.announced[s.calls - 1]? = some d :=
    ⟨_, List.getElem?_eq_getElem (by omega)⟩
  have left := rest_eq_cons d reads
  have same : field.read s.recv.frameData = field.read d :=
    inTime.current d found field (by rw [left]; exact List.mem_cons_self)
  rw [Complete, leftReads_eq found, left] at complete
  rw [Complete, leftReads_eq found, next_congr reads same, same, ← complete, readsOf, readsOf,
    List.map_cons, List.append_assoc, List.singleton_append]

/-- The loop over the image bytes ends with nothing left to read. -/
theorem return_complete {s : HandOver} (complete : Complete s) (busy : s.pc ≠ .eventRead)
    (none : s.pc.field = none) : Complete { s with pc := .eventRead } := by
  have ended : ∀ d, rest d s.pc = [] := by
    intro d
    cases pc : s.pc with
    | readData i len =>
        rw [pc, Pc.field] at none
        split at none
        case isTrue => cases none
        case isFalse outside => rw [rest, Nat.sub_eq_zero_of_le (Nat.le_of_not_lt outside)]; rfl
    | eventRead => exact absurd pc busy
    | switchType | printType | switchCmd | testLen | readTotal | readNum | readLen =>
        rw [pc] at none
        cases none
  rw [Complete, leftReads_nil _ _ ended] at complete
  rw [Complete, leftReads_eventRead]
  exact complete

theorem thread_complete {s t : HandOver} (inTime : InTime s) (complete : Complete s)
    (stepped : threadStep s = some t) : Complete t := by
  simp only [threadStep] at stepped
  split at stepped
  case h_1 waiting =>
    split at stepped
    case isTrue event =>
      obtain rfl := Option.some.inj stepped
      exact eventRead_complete inTime complete waiting event
    case isFalse => cases stepped
  case h_2 busy =>
    split at stepped
    case h_1 field reads =>
      obtain rfl := Option.some.inj stepped
      exact read_complete inTime complete reads
    case h_2 none =>
      obtain rfl := Option.some.inj stepped
      exact return_complete complete busy none

theorem irq_complete {s t : HandOver} {data : UInt8} (inTime : InTime s) (complete : Complete s)
    (stepped : turn s (.irq data) = some t) : Complete t := by
  rw [turn_irq] at stepped
  obtain rfl := Option.some.inj stepped
  have counted := inTime.counted
  have enough : s.calls ≤ s.announced.length := by
    rw [counted]
    exact Nat.le_add_right s.calls _
  have left : ∀ more : List FrameData,
      leftReads (s.announced ++ more) s.calls s.pc = leftReads s.announced s.calls s.pc := by
    intro more
    by_cases busy : 0 < s.calls
    · rw [leftReads, leftReads, List.getElem?_append_left (by omega)]
    · have waiting : s.pc = .eventRead := not_not.mp fun running => busy (inTime.busy running)
      rw [waiting, leftReads_eventRead, leftReads_eventRead]
  rw [Complete, left, List.take_append_of_le_length enough]
  exact complete

theorem turn_complete {s t : HandOver} {label : Turn} (inTime : InTime s)
    (complete : Complete s) (stepped : turn s label = some t) : Complete t := by
  cases label with
  | irq data => exact irq_complete inTime complete stepped
  | thread => exact thread_complete inTime complete stepped

/-- The thread waits, and nothing is pending. -/
def Waits (s : HandOver) : Prop := s.pc = .eventRead ∧ s.event = false

/-- **What the thread has done once it waits**: what `ProcessFrame` does with the announced
frames, one after the other. -/
theorem threadOps_eq {turns : List Turn} {s : HandOver}
    (run : Run turn ThreadInTime HandOver.init turns s) (waits : Waits s) (lastPacket : UInt8) :
    threadOps s = s.announced.flatMap fun d => panelOps (processFrame lastPacket d).2 := by
  have both : InTime s ∧ Complete s :=
    run.invariant (I := fun s => InTime s ∧ Complete s)
      (fun _ _ _ both allowed stepped =>
        ⟨turn_inTime both.1 allowed stepped, turn_complete both.1 both.2 stepped⟩)
      ⟨init_inTime, rfl⟩
  obtain ⟨inTime, complete⟩ := both
  obtain ⟨waiting, quiet⟩ := waits
  have counted : s.announced.length = s.calls := by
    rw [inTime.counted, quiet]
    rfl
  rw [Complete, waiting, leftReads_eventRead, List.append_nil,
    List.take_of_length_le (Nat.le_of_eq counted)] at complete
  rw [threadOps, complete, ← ops_allReads lastPacket s.announced 0, counted, List.range_eq_range']

/-! ## Runs in time -/

/-- A step of a thread that is in a call. -/
theorem turn_busy {s : HandOver} (busy : s.pc ≠ .eventRead) :
    turn s .thread =
      match s.pc.field with
      | some field =>
          some { s with
            pc := s.pc.next s.recv.frameData
            reads := s.reads ++ [⟨s.calls - 1, field, field.read s.recv.frameData⟩] }
      | none => some { s with pc := .eventRead } := by
  show threadStep s = _
  unfold threadStep
  split
  case h_1 waiting => exact absurd waiting busy
  case h_2 => rfl

/-- A call comes to its end if the thread is left alone. -/
theorem call_returns {s : HandOver} (busy : s.pc ≠ .eventRead) {n : Nat}
    (left : (rest s.recv.frameData s.pc).length = n) :
    ∃ turns t, Run turn ThreadInTime s turns t ∧ receivedBytes turns = [] ∧
      t.pc = .eventRead ∧ t.event = s.event := by
  induction n generalizing s with
  | zero =>
      have none : s.pc.field = none := by
        by_contra some
        obtain ⟨field, reads⟩ := Option.ne_none_iff_exists'.mp some
        rw [rest_eq_cons _ reads] at left
        cases left
      have stepped := turn_busy busy
      rw [none] at stepped
      exact ⟨[.thread], _, .move trivial stepped (.done _), rfl, rfl, rfl⟩
  | succ n ih =>
      have stepped := turn_busy busy
      cases reads : s.pc.field with
      | none =>
          rw [reads] at stepped
          exact ⟨[.thread], _, .move trivial stepped (.done _), rfl, rfl, rfl⟩
      | some field =>
          rw [reads] at stepped
          rw [rest_eq_cons _ reads, List.length_cons, Nat.succ_inj] at left
          by_cases ended : s.pc.next s.recv.frameData = .eventRead
          · exact ⟨[.thread], _, .move trivial stepped (.done _), rfl, ended, rfl⟩
          · obtain ⟨turns, t, run, none, returned, event⟩ := ih
              (s := { s with
                pc := s.pc.next s.recv.frameData
                reads := s.reads ++ [⟨s.calls - 1, field, field.read s.recv.frameData⟩] })
              ended left
            exact ⟨.thread :: turns, t, .move trivial stepped run, none, returned, event⟩

/-- A byte comes in, and the thread does all there is to do. -/
theorem byte_inTime_run {s : HandOver} (waits : Waits s) (data : UInt8) :
    ∃ turns t, Run turn ThreadInTime s turns t ∧ receivedBytes turns = [data] ∧ Waits t := by
  have nothing : unread s = [] := by
    rw [unread, waits.1, waits.2]
    cases s.announced[s.calls - 1]? <;> rfl
  have allowed : ThreadInTime s (.irq data) := by
    refine ⟨fun p _ member => ?_, fun _ => waits.2⟩
    rw [nothing] at member
    cases member
  have received := turn_irq s data
  by_cases complete : completes s.recv data
  · simp only [complete, if_true, decide_true, Bool.or_true] at received
    obtain ⟨turns, t, run, none, returned, event⟩ := call_returns
      (s := { s with
        recv := (recDataProcessing s.recv data).1
        event := false
        pc := .switchType
        announced := s.announced ++ [(recDataProcessing s.recv data).1.frameData]
        calls := s.calls + 1 }) Pc.noConfusion rfl
    have woken : turn { s with
        recv := (recDataProcessing s.recv data).1
        event := true
        announced := s.announced ++ [(recDataProcessing s.recv data).1.frameData] } .thread =
          some { s with
            recv := (recDataProcessing s.recv data).1
            event := false
            pc := .switchType
            announced := s.announced ++ [(recDataProcessing s.recv data).1.frameData]
            calls := s.calls + 1 } := by
      simp [turn, threadStep, waits.1]
    refine ⟨.irq data :: .thread :: turns, t, .move allowed received (.move trivial woken run), ?_,
      returned, event⟩
    exact congrArg (data :: ·) none
  · simp only [complete, if_false, decide_false, Bool.or_false, List.append_nil] at received
    exact ⟨[.irq data], _, .move allowed received (.done _), rfl, waits⟩

/-- **A thread can be in time**, whatever is received. -/
theorem exists_inTime (stream : List UInt8) :
    ∃ turns s, Run turn ThreadInTime HandOver.init turns s ∧ receivedBytes turns = stream ∧
      Waits s := by
  have from_waiting : ∀ s, Waits s → ∃ turns t, Run turn ThreadInTime s turns t ∧
      receivedBytes turns = stream ∧ Waits t := by
    induction stream with
    | nil => exact fun s waits => ⟨[], s, .done s, rfl, waits⟩
    | cons data rest ih =>
        intro s waits
        obtain ⟨first, middle, run, one, waits'⟩ := byte_inTime_run waits data
        obtain ⟨later, last, run', others, waits''⟩ := ih middle waits'
        refine ⟨first ++ later, last, run.append run', ?_, waits''⟩
        rw [receivedBytes, List.filterMap_append, ← receivedBytes, ← receivedBytes, one, others]
        rfl
  exact from_waiting HandOver.init ⟨rfl, rfl⟩

end EinkLiteOS.User
