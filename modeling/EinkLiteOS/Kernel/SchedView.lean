/-
# Kernel.SchedView -- the scheduler without its pointers

`View` is what the scheduler keeps: for each priority the tasks that are ready, for each object
the tasks that wait for it, and the tasks that wait for a time in the order of their times.
`Shows` relates it to the pointers and the bitmap.  Each function of `Kernel.Sched` is given here
as what it does to the view (`Shows.enQueue` and the others): none of them follows a null pointer
or fails an assertion where it may be called.
-/
import EinkLiteOS.Kernel.Sched
import Mathlib.Data.Option.Basic

namespace EinkLiteOS.Kernel

open EinkLiteOS.Theory.RingList EinkLiteOS.Theory.BitMap

set_option autoImplicit false

/-- The tasks and their lists. -/
structure View where
  task : Nat → LosTaskCB
  queue : Node → List Nat
  deadline : Nat → UInt64
  timed : List Nat
  runTask : Nat
  taskLock : UInt16
  taskScheduled : Bool
  switchPending : Bool

/-- The deadlines of the nodes of the sort link; its head has none. -/
def linkDeadline (deadline : Nat → UInt64) : Option Nat → UInt64
  | none => osSortLinkInvalidTime
  | some taskID => deadline taskID

/-- The bitmap has the queues that are not empty. -/
def BitmapOf (queueBitmap : BitVec 32) (queue : Node → List Nat) : Prop :=
  ∀ priority, priority < osPriorityQueueNum →
    (queueBitmap.getMsbD priority = true ↔ queue (.priQueue priority) ≠ [])

/-- The state shows the view. -/
structure Shows (s : Sched) (v : View) : Prop where
  task : s.task = v.task
  queues : Queues s.links v.queue
  bitmap : BitmapOf s.queueBitmap v.queue
  timed : Waiting none (linkDeadline v.deadline) s.sortLink (v.timed.map some)
  runTask : s.runTask = v.runTask
  taskLock : s.taskLock = v.taskLock
  taskScheduled : s.taskScheduled = v.taskScheduled
  switchPending : s.switchPending = v.switchPending

/-! ## What the functions do -/

def View.setTask (v : View) (taskID : Nat) (tcb : LosTaskCB → LosTaskCB) : View :=
  { v with task := Function.update v.task taskID (tcb (v.task taskID)) }

def View.setStatus (v : View) (taskID : Nat) (status : TaskStatus → TaskStatus) : View :=
  v.setTask taskID fun tcb => { tcb with taskStatus := status tcb.taskStatus }

/-- The task is taken out of its list. -/
def View.unlink (v : View) (taskID : Nat) : View :=
  { v with queue := fun h => (v.queue h).erase taskID }

/-- The task no longer waits for a time. -/
def View.untime (v : View) (taskID : Nat) : View :=
  { v with
    deadline := Function.update v.deadline taskID osSortLinkInvalidTime
    timed := v.timed.erase taskID }

/-- The task waits for a time. -/
def View.time (v : View) (taskID : Nat) (responseTime : UInt64) : View :=
  let deadline := Function.update v.deadline taskID responseTime
  { v with deadline, timed := insertResponse deadline taskID v.timed }

/-- The status of a task that gets ready. -/
def TaskStatus.readied (status : TaskStatus) : TaskStatus :=
  { status with pend := false, suspend := false, delay := false, pendTime := false, ready := true }

/-- The task gets ready: in front of its queue if some of its time slice is left, else behind it
with a new one. -/
def View.enQueue (c : KernelConfig) (v : View) (taskID : Nat) : View :=
  let taskCB := v.task taskID
  let h := Node.priQueue taskCB.priority
  if taskID = c.idleTaskID then v.setStatus taskID TaskStatus.readied
  else if c.timeSliceMin < taskCB.timeSlice then
    { v.setStatus taskID TaskStatus.readied with
      queue := Function.update v.queue h (taskID :: v.queue h) }
  else
    { (v.setTask taskID ({ · with timeSlice := c.schedTimeSlices })).setStatus taskID
        TaskStatus.readied with
      queue := Function.update v.queue h (v.queue h ++ [taskID]) }

/-- The task is no longer ready. -/
def View.deQueue (c : KernelConfig) (v : View) (taskID : Nat) : View :=
  let taskCB := v.task taskID
  if taskCB.taskStatus.ready then
    let v := if taskID = c.idleTaskID then v else v.unlink taskID
    v.setStatus taskID ({ · with ready := false })
  else v

/-! ## The lists -/

section Lists

variable {s : Sched} {v : View} {taskID : Nat} {h : Node}

theorem Shows.setTask (shows : Shows s v) (taskID : Nat) (tcb : LosTaskCB → LosTaskCB) :
    Shows (s.setTask taskID tcb) (v.setTask taskID tcb) :=
  { shows with
    task := by simp only [Sched.setTask, View.setTask, shows.task] }

theorem Shows.setStatus (shows : Shows s v) (taskID : Nat) (status : TaskStatus → TaskStatus) :
    Shows (s.setStatus taskID status) (v.setStatus taskID status) := shows.setTask taskID _

/-- Other pointers, which leave the queues of the scheduler alone. -/
theorem Shows.relink (shows : Shows s v) {links : Links Node} {queue : Node → List Nat}
    (queues : Queues links queue)
    (same : ∀ priority, queue (.priQueue priority) = v.queue (.priQueue priority)) :
    Shows { s with links } { v with queue } :=
  { shows with
    queues := queues
    bitmap := fun priority inside => by
      show _ ↔ queue (.priQueue priority) ≠ []
      rw [same priority]
      exact shows.bitmap priority inside }

/-- **A task is taken out of a list that is not a queue of the scheduler.** -/
theorem Shows.unlink (shows : Shows s v) (notQueue : ∀ priority, h ≠ .priQueue priority)
    (inList : taskID ∈ v.queue h) :
    ∃ s', s.listDelete taskID = some s' ∧ Shows s' (v.unlink taskID) := by
  obtain ⟨links, deleted, queues⟩ := shows.queues.delete inList
  refine ⟨{ s with links }, by simp only [Sched.listDelete, deleted]; rfl, ?_⟩
  refine shows.relink queues fun priority => List.erase_of_not_mem ?_
  exact fun there => notQueue priority (shows.queues.unique inList there)

/-- **A task is put in front of such a list.** -/
theorem Shows.add (shows : Shows s v) (isHead : h.IsHead)
    (notQueue : ∀ priority, h ≠ .priQueue priority) (unlisted : Unlisted v.queue taskID) :
    ∃ s', s.listAdd h taskID = some s' ∧
      Shows s' { v with queue := Function.update v.queue h (taskID :: v.queue h) } := by
  obtain ⟨links, added, queues⟩ := shows.queues.add isHead unlisted
  refine ⟨{ s with links }, by simp only [Sched.listAdd, added]; rfl, ?_⟩
  refine shows.relink queues fun priority => ?_
  exact Function.update_of_ne (notQueue priority).symm _ _

/-- **A task is put at the end of such a list.** -/
theorem Shows.tailInsert (shows : Shows s v) (isHead : h.IsHead)
    (notQueue : ∀ priority, h ≠ .priQueue priority) (unlisted : Unlisted v.queue taskID) :
    ∃ s', s.listTailInsert h taskID = some s' ∧
      Shows s' { v with queue := Function.update v.queue h (v.queue h ++ [taskID]) } := by
  obtain ⟨links, inserted, queues⟩ := shows.queues.tailInsert isHead unlisted
  refine ⟨{ s with links }, by simp only [Sched.listTailInsert, inserted]; rfl, ?_⟩
  refine shows.relink queues fun priority => ?_
  exact Function.update_of_ne (notQueue priority).symm _ _

theorem frontBit_eq : (0x80000000#32 : BitVec 32) = frontBit 32 := rfl

/-- The bit that is set when a task comes into a queue. -/
theorem BitmapOf.set {queueBitmap : BitVec 32} {queue : Node → List Nat} {priority : Nat}
    (bitmap : BitmapOf queueBitmap queue) (inside : priority < osPriorityQueueNum) {empty : Bool}
    (isEmpty : empty = true ↔ queue (.priQueue priority) = []) {tasks : List Nat}
    (some : tasks ≠ []) :
    BitmapOf (if empty then queueBitmap ||| 0x80000000#32 >>> priority else queueBitmap)
      (Function.update queue (.priQueue priority) tasks) := by
  intro other insideOther
  have set := getMsbD_set queueBitmap (j := other) inside
  have old := bitmap other insideOther
  by_cases same : other = priority
  · subst same
    rw [Function.update_self, frontBit_eq]
    refine iff_of_true ?_ some
    cases empty with
    | true => rw [if_pos rfl, set, decide_eq_true rfl, Bool.true_or]
    | false =>
        rw [if_neg Bool.false_ne_true]
        exact old.mpr fun none => Bool.false_ne_true (isEmpty.mpr none)
  · have different : Node.priQueue other ≠ .priQueue priority := fun eq => same (by cases eq; rfl)
    rw [Function.update_of_ne different, ← old, frontBit_eq]
    split
    · rw [set, decide_eq_false same, Bool.false_or]
    · rfl

/-- The bit that is cleared when the last task leaves a queue. -/
theorem BitmapOf.clear {queueBitmap : BitVec 32} {queue : Node → List Nat} {priority : Nat}
    (bitmap : BitmapOf queueBitmap queue) (inside : priority < osPriorityQueueNum) {empty : Bool}
    {tasks : List Nat} (isEmpty : empty = true ↔ tasks = [])
    (some : queue (.priQueue priority) ≠ []) :
    BitmapOf (if empty then queueBitmap &&& ~~~(0x80000000#32 >>> priority) else queueBitmap)
      (Function.update queue (.priQueue priority) tasks) := by
  intro other insideOther
  have clear := getMsbD_clear queueBitmap (j := other) inside
  have old := bitmap other insideOther
  by_cases same : other = priority
  · subst same
    rw [Function.update_self, frontBit_eq]
    cases empty with
    | true =>
        rw [if_pos rfl, clear, decide_eq_true rfl, isEmpty.mp rfl]
        simp
    | false =>
        rw [if_neg Bool.false_ne_true]
        refine iff_of_true (old.mpr some) fun none => ?_
        exact Bool.false_ne_true (isEmpty.mpr none)
  · have different : Node.priQueue other ≠ .priQueue priority := fun eq => same (by cases eq; rfl)
    rw [Function.update_of_ne different, ← old, frontBit_eq]
    split
    · rw [clear, decide_eq_false same, Bool.not_false, Bool.true_and]
    · rfl

end Lists

/-! ## The link of the times -/

section Times

variable {c : KernelConfig} {s : Sched} {v : View} {taskID : Nat}

theorem linkDeadline_update (deadline : Nat → UInt64) (taskID : Nat) (responseTime : UInt64) :
    Function.update (linkDeadline deadline) (some taskID) responseTime =
      linkDeadline (Function.update deadline taskID responseTime) := by
  funext node
  cases node with
  | none => exact Function.update_of_ne (Option.some_ne_none taskID).symm _ _
  | some other =>
      by_cases same : other = taskID
      · subst same
        rw [Function.update_self, linkDeadline, Function.update_self]
      · rw [Function.update_of_ne fun eq => same (Option.some.inj eq), linkDeadline, linkDeadline,
          Function.update_of_ne same]

theorem insertResponse_map (deadline : Nat → UInt64) (taskID : Nat) (timed : List Nat) :
    insertResponse (linkDeadline deadline) (some taskID) (timed.map some) =
      (insertResponse deadline taskID timed).map some := by
  cases timed with
  | nil => rfl
  | cons first rest =>
      have front : (some first :: rest.map some).takeWhile
          (linkDeadline deadline · ≤ deadline taskID) =
            ((first :: rest).takeWhile (deadline · ≤ deadline taskID)).map some :=
        List.takeWhile_map (p := (linkDeadline deadline · ≤ deadline taskID)) (l := first :: rest)
      have back : (some first :: rest.map some).dropWhile
          (linkDeadline deadline · ≤ deadline taskID) =
            ((first :: rest).dropWhile (deadline · ≤ deadline taskID)).map some :=
        List.dropWhile_map (p := (linkDeadline deadline · ≤ deadline taskID)) (l := first :: rest)
      rw [List.map_cons, insertResponse, insertResponse]
      by_cases early : deadline taskID < deadline first
      · rw [if_pos early]
        exact if_pos early
      · rw [if_neg early]
        refine (if_neg early).trans ?_
        by_cases same : deadline first = deadline taskID
        · rw [if_pos same]
          exact if_pos same
        · rw [if_neg same, List.map_append, List.map_cons, ← front, ← back]
          exact if_neg same

/-- Another link of the times. -/
theorem Shows.retime (shows : Shows s v) {sortLink : SortLink (Option Nat)}
    {deadline : Nat → UInt64} {timed : List Nat}
    (waiting : Waiting none (linkDeadline deadline) sortLink (timed.map some)) :
    Shows { s with sortLink } { v with deadline, timed } :=
  { shows with timed := waiting }

theorem Shows.timed_nodup (shows : Shows s v) : v.timed.Nodup :=
  List.Nodup.of_map _ (List.nodup_cons.mp shows.timed.nodup).2

/-- A task stands in the link if it has a deadline. -/
theorem Shows.timed_iff (shows : Shows s v) :
    taskID ∈ v.timed ↔ v.deadline taskID ≠ osSortLinkInvalidTime := by
  rw [← List.mem_map_of_injective (Option.some_injective Nat)]
  exact shows.timed.waits (some taskID)

/-- The link is sorted. -/
theorem Shows.timed_sorted (shows : Shows s v) : Sorted v.deadline v.timed := by
  have sorted := shows.timed.sorted
  rw [Sorted, List.pairwise_map] at sorted
  exact sorted

theorem map_erase_some (timed : List Nat) (taskID : Nat) :
    @List.erase _ instBEqOfDecidableEq (timed.map some) (some taskID) =
      (timed.erase taskID).map some :=
  (@List.map_erase _ _ _ _ instBEqOfDecidableEq _ some (Option.some_injective Nat) taskID timed).symm

/-- **A task no longer waits for a time.** -/
theorem Shows.untime (shows : Shows s v) (taskID : Nat) :
    ∃ s', s.deleteSortLink taskID = some s' ∧ Shows s' (v.untime taskID) := by
  obtain ⟨sortLink, deleted, waiting⟩ := shows.timed.delete (some taskID)
  rw [linkDeadline_update, map_erase_some] at waiting
  exact ⟨{ s with sortLink }, by simp only [Sched.deleteSortLink, deleted]; rfl,
    shows.retime waiting⟩

theorem Shows.untimeNode (shows : Shows s v) (timed : taskID ∈ v.timed) :
    ∃ s', s.deleteNodeSortLink taskID = some s' ∧ Shows s' (v.untime taskID) := by
  obtain ⟨sortLink, deleted, waiting⟩ := shows.timed.deleteNode (List.mem_map_of_mem timed)
  rw [linkDeadline_update, map_erase_some] at waiting
  exact ⟨{ s with sortLink }, by simp only [Sched.deleteNodeSortLink, deleted]; rfl,
    shows.retime waiting⟩

/-- **A task waits for a time.** -/
theorem Shows.time (shows : Shows s v) {startTime : UInt64} {waitTicks : UInt32}
    (idle : v.deadline taskID = osSortLinkInvalidTime)
    (isTime : startTime + waitTicks.toUInt64 * c.cyclePerTick ≠ osSortLinkInvalidTime)
    (enough : v.timed.length ≤ c.taskMaxNum + 1) :
    ∃ s', s.add2SortLink c taskID startTime waitTicks = some s' ∧
      Shows s' (v.time taskID (startTime + waitTicks.toUInt64 * c.cyclePerTick)) := by
  have may : SortCall.May c.cyclePerTick none (linkDeadline v.deadline)
      (.add (some taskID) startTime waitTicks) := ⟨Option.some_ne_none taskID, idle, isTime⟩
  rw [← List.length_map some] at enough
  obtain ⟨sortLink, added, waiting⟩ :=
    shows.timed.add may enough (linkDeadline_update v.deadline taskID _)
  rw [insertResponse_map] at waiting
  exact ⟨{ s with sortLink }, by simp only [Sched.add2SortLink, added]; rfl,
    shows.retime waiting⟩

end Times

/-! ## The queues of the scheduler -/

section Queue

variable {c : KernelConfig} {s : Sched} {v : View} {taskID : Nat}

/-- What the functions that put a task into a queue and take it out of one may be called for. -/
structure Queued (v : View) (taskID : Nat) : Prop where
  inside : (v.task taskID).priority < osPriorityQueueNum
  inQueue : taskID ∈ v.queue (.priQueue (v.task taskID).priority)

@[simp] theorem Sched.setQueueBit_links (s : Sched) (priority : Nat) :
    (s.setQueueBit priority).links = s.links := by
  simp only [Sched.setQueueBit]
  split <;> rfl

theorem Sched.setQueueBit_bitmap (s : Sched) (priority : Nat) :
    (s.setQueueBit priority).queueBitmap =
      if losListEmpty s.links (.priQueue priority) then
        s.queueBitmap ||| 0x80000000#32 >>> priority
      else s.queueBitmap := by
  simp only [Sched.setQueueBit]
  split <;> rfl

theorem Shows.setQueueBit (shows : Shows s v) (priority : Nat) {links : Links Node}
    {queue : Node → List Nat} (queues : Queues links queue)
    (bitmap : BitmapOf (s.setQueueBit priority).queueBitmap queue) :
    Shows { s.setQueueBit priority with links } { v with queue } := by
  simp only [Sched.setQueueBit] at bitmap ⊢
  split
  case isTrue isEmpty =>
    rw [if_pos isEmpty] at bitmap
    exact { shows with queues := queues, bitmap := bitmap }
  case isFalse isEmpty =>
    rw [if_neg isEmpty] at bitmap
    exact { shows with queues := queues, bitmap := bitmap }

theorem Shows.enHead (shows : Shows s v) {priority : Nat} (inside : priority < osPriorityQueueNum)
    (unlisted : Unlisted v.queue taskID) :
    ∃ s', osSchedPriQueueEnHead s taskID priority = some s' ∧
      Shows s' { v with
        queue := Function.update v.queue (.priQueue priority)
          (taskID :: v.queue (.priQueue priority)) } := by
  obtain ⟨links, added, queues⟩ := shows.queues.add (h := .priQueue priority) inside unlisted
  have empty := shows.queues.empty (h := .priQueue priority) inside
  have bitmap := shows.bitmap.set inside empty
    (List.cons_ne_nil taskID (v.queue (.priQueue priority)))
  rw [← Sched.setQueueBit_bitmap] at bitmap
  refine ⟨{ s.setQueueBit priority with links }, ?_, ?_⟩
  · simp only [osSchedPriQueueEnHead, Sched.listAdd, Sched.setQueueBit_links, added]
    rfl
  · exact shows.setQueueBit priority queues bitmap

theorem Shows.enTail (shows : Shows s v) {priority : Nat} (inside : priority < osPriorityQueueNum)
    (unlisted : Unlisted v.queue taskID) :
    ∃ s', osSchedPriQueueEnTail s taskID priority = some s' ∧
      Shows s' { v with
        queue := Function.update v.queue (.priQueue priority)
          (v.queue (.priQueue priority) ++ [taskID]) } := by
  obtain ⟨links, added, queues⟩ := shows.queues.tailInsert (h := .priQueue priority) inside unlisted
  have empty := shows.queues.empty (h := .priQueue priority) inside
  have bitmap := shows.bitmap.set inside empty
    (List.concat_ne_nil taskID (v.queue (.priQueue priority)))
  rw [← Sched.setQueueBit_bitmap] at bitmap
  refine ⟨{ s.setQueueBit priority with links }, ?_, ?_⟩
  · simp only [osSchedPriQueueEnTail, Sched.listTailInsert, Sched.setQueueBit_links, added]
    rfl
  · exact shows.setQueueBit priority queues bitmap

theorem Shows.deleteQueue (shows : Shows s v) {priority : Nat}
    (inside : priority < osPriorityQueueNum) (inQueue : taskID ∈ v.queue (.priQueue priority)) :
    ∃ s', osSchedPriQueueDelete s taskID priority = some s' ∧ Shows s' (v.unlink taskID) := by
  obtain ⟨links, deleted, queues⟩ := shows.queues.delete inQueue
  have empty := queues.empty (h := .priQueue priority) inside
  have bitmap := shows.bitmap.clear inside empty (List.ne_nil_of_mem inQueue)
  rw [shows.queues.erase inQueue] at bitmap
  simp only [osSchedPriQueueDelete, Sched.listDelete, deleted, Option.bind_eq_bind,
    Option.bind_some, Option.pure_def]
  split
  case isTrue isEmpty =>
    rw [if_pos isEmpty] at bitmap
    exact ⟨_, rfl, { shows with queues := queues, bitmap := bitmap }⟩
  case isFalse isEmpty =>
    rw [if_neg isEmpty] at bitmap
    exact ⟨_, rfl, { shows with queues := queues, bitmap := bitmap }⟩

/-- **`OsSchedTaskEnQueue`** -/
theorem Shows.enQueue (shows : Shows s v) (notReady : (v.task taskID).taskStatus.ready = false)
    (queueable : taskID ≠ c.idleTaskID →
      (v.task taskID).priority < osPriorityQueueNum ∧ Unlisted v.queue taskID) :
    ∃ s', osSchedTaskEnQueue c s taskID = some s' ∧ Shows s' (v.enQueue c taskID) := by
  have same := shows.task
  simp only [osSchedTaskEnQueue, same, notReady, Bool.false_eq_true, if_false, View.enQueue]
  by_cases isIdle : taskID = c.idleTaskID
  · rw [if_neg (not_not_intro isIdle), if_pos isIdle]
    exact ⟨_, rfl, shows.setStatus taskID TaskStatus.readied⟩
  · obtain ⟨inside, unlisted⟩ := queueable isIdle
    rw [if_pos isIdle, if_neg isIdle]
    by_cases left : c.timeSliceMin < (v.task taskID).timeSlice
    · rw [if_pos left, if_pos left]
      obtain ⟨s', queued, shows'⟩ := shows.enHead inside unlisted
      rw [queued]
      exact ⟨_, rfl, shows'.setStatus taskID TaskStatus.readied⟩
    · rw [if_neg left, if_neg left]
      obtain ⟨s', queued, shows'⟩ := (shows.setTask taskID
        ({ · with timeSlice := c.schedTimeSlices })).enTail inside unlisted
      rw [queued]
      exact ⟨_, rfl, shows'.setStatus taskID TaskStatus.readied⟩

/-- **`OsSchedTaskDeQueue`** -/
theorem Shows.deQueue (shows : Shows s v)
    (queued : (v.task taskID).taskStatus.ready = true → taskID ≠ c.idleTaskID → Queued v taskID) :
    ∃ s', osSchedTaskDeQueue c s taskID = some s' ∧ Shows s' (v.deQueue c taskID) := by
  have same := shows.task
  simp only [osSchedTaskDeQueue, same, View.deQueue]
  by_cases ready : (v.task taskID).taskStatus.ready = true
  · rw [if_pos ready, if_pos ready]
    by_cases isIdle : taskID = c.idleTaskID
    · rw [if_neg (not_not_intro isIdle), if_pos isIdle]
      exact ⟨_, rfl, shows.setStatus taskID ({ · with ready := false })⟩
    · obtain ⟨inside, inQueue⟩ := queued ready isIdle
      rw [if_pos isIdle, if_neg isIdle]
      obtain ⟨s', deleted, shows'⟩ := shows.deleteQueue inside inQueue
      rw [deleted]
      exact ⟨_, rfl, shows'.setStatus taskID ({ · with ready := false })⟩
  · rw [if_neg ready, if_neg ready]
    exact ⟨s, rfl, shows⟩

end Queue

end EinkLiteOS.Kernel
