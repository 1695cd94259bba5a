/-
# Kernel.SchedSwitch -- the switch

`OsSchedTaskSwitch` puts the running task where it belongs: into the link of the times if it waits
for one, into its queue if it waits for nothing.  Then the first task of the first queue that is
not empty gets the processor, or the idle task if all are empty (`Good.switch`).
-/
import EinkLiteOS.Kernel.SchedScan

namespace EinkLiteOS.Kernel

open EinkLiteOS.Theory EinkLiteOS.Theory.RingList EinkLiteOS.Theory.BitMap

set_option autoImplicit false

/-! ## The running task -/

/-- When the time is over that the task waits for. -/
def LosTaskCB.responseTime (c : KernelConfig) (tcb : LosTaskCB) : UInt64 :=
  tcb.startTime + tcb.waitTimes.toUInt64 * c.cyclePerTick

/-- Where the running task is put when it may lose the processor. -/
def View.requeue (c : KernelConfig) (v : View) : View :=
  let tcb := v.task v.runTask
  let status := tcb.taskStatus
  if status.pendTime || status.delay then v.time v.runTask (tcb.responseTime c)
  else if !(status.pend || status.suspend || status.unused) then v.enQueue c v.runTask
  else v

def Record.requeue (c : KernelConfig) (taskID : Nat) (r : Record) : Record :=
  let status := r.status
  if status.pendTime || status.delay then r.time (r.tcb.responseTime c)
  else if !(status.pend || status.suspend || status.unused) then r.enQueue c taskID
  else r

/-- The times there are: a deadline computed from one of them is a time. -/
def KernelConfig.Clock (c : KernelConfig) (currTime : UInt64) : Prop :=
  currTime.toNat + UInt32.size * c.cyclePerTick.toNat < osSortLinkInvalidTime.toNat

section Requeue

variable {c : KernelConfig} {s : Sched} {v : View} {taskID : Nat} {r : Record}

theorem KernelConfig.Clock.isTime {currTime : UInt64} (clock : c.Clock currTime)
    (waitTimes : UInt32) :
    currTime + waitTimes.toUInt64 * c.cyclePerTick ≠ osSortLinkInvalidTime := by
  intro invalid
  have product : waitTimes.toNat * c.cyclePerTick.toNat ≤ UInt32.size * c.cyclePerTick.toNat :=
    Nat.mul_le_mul_right _ (Nat.le_of_lt waitTimes.toNat_lt)
  have value := congrArg UInt64.toNat invalid
  have last : osSortLinkInvalidTime.toNat < 18446744073709551616 := UInt64.toNat_lt _
  rw [KernelConfig.Clock] at clock
  rw [UInt64.toNat_add, UInt64.toNat_mul, UInt32.toNat_toUInt64, Nat.mod_eq_of_lt (a := _ * _)
    (by omega), Nat.mod_eq_of_lt (by omega)] at value
  omega

theorem View.requeue_acts (c : KernelConfig) (v : View) :
    Acts v (v.requeue c) v.runTask (Record.requeue c v.runTask) := by
  simp only [View.requeue]
  split
  case isTrue waits =>
    exact (v.time_acts v.runTask _).congr (if_pos waits).symm
  case isFalse noTime =>
    split
    case isTrue free =>
      exact (View.enQueue_acts c v v.runTask).congr ((if_neg noTime).trans (if_pos free)).symm
    case isFalse blocked =>
      exact (Layout.Changes.refl v v.runTask).congr ((if_neg noTime).trans (if_neg blocked)).symm

theorem Record.requeue_running (r : Record) :
    (r.requeue c taskID).status.running = r.status.running := by
  simp only [Record.requeue]
  split
  · rfl
  · split
    · rw [Record.enQueue_status]
      rfl
    · rfl

theorem Record.requeue_unused (r : Record) :
    (r.requeue c taskID).status.unused = r.status.unused := by
  simp only [Record.requeue]
  split
  · rfl
  · split
    · rw [Record.enQueue_status]
      rfl
    · rfl

/-- The task that loses the processor is where it belongs. -/
theorem Ok.requeue (ok : Ok c taskID r True) (isTime : r.tcb.responseTime c ≠ osSortLinkInvalidTime) :
    Ok c taskID (r.requeue c taskID) False := by
  have flags := ok.flags
  have notReady := flags.here trivial
  have untimed : ¬ r.Timed := fun timed => (ok.timed.mp timed).1 trivial
  have blockedFlags : r.status.unused = true ∨ r.status.Blocked →
      FlagsOk r.status (taskID = c.idleTaskID) False := by
    intro blocked
    refine ⟨?_, flags.pendTime, flags.pend, flags.unused, fun _ => ?_, flags.idle⟩
    · exact fun ready => absurd (notReady.symm.trans ready) Bool.false_ne_true
    · rw [TaskStatus.Blocked] at blocked
      tauto
  simp only [Record.requeue]
  split
  case isTrue waits =>
    have waits' := Bool.or_eq_true_iff.mp waits
    refine ⟨blockedFlags (Or.inr ?_), ok.ready, ok.pend, ok.free, ok.heads, ?_, ok.inside⟩
    · exact waits'.elim (fun pendTime => Or.inl (flags.pendTime pendTime))
        fun delay => Or.inr (Or.inl delay)
    · exact iff_of_true isTime ⟨id, waits'.symm⟩
  case isFalse noTime =>
    simp only [Bool.or_eq_true, not_or, Bool.not_eq_true] at noTime
    split
    case isTrue free =>
      simp only [Bool.not_eq_true', Bool.or_eq_false_iff] at free
      obtain ⟨⟨notPend, -⟩, used⟩ := free
      obtain ⟨inside, isTask⟩ := ok.inside used
      exact ok_enQueue (ok.nowhere_used notReady notPend used) untimed used inside isTask
    case isFalse blocked =>
      simp only [Bool.not_eq_true', Bool.not_eq_false, Bool.or_eq_true] at blocked
      refine ⟨blockedFlags ?_, ok.ready, ok.pend, ok.free, ok.heads, ?_, ok.inside⟩
      · rw [TaskStatus.Blocked]
        tauto
      · exact iff_of_false untimed fun both => by simp [noTime] at both

/-- **The running task is put where it belongs.** -/
theorem Good.requeue (good : Good c s v (some v.runTask))
    (isTime : (v.task v.runTask).responseTime c ≠ osSortLinkInvalidTime) :
    ∃ s', requeueRunTask c s = some s' ∧ Good c s' (v.requeue c) none := by
  have length := good.timed_length
  obtain ⟨shows, consistent⟩ := good
  have ok := consistent.ok v.runTask
  rw [eq_true (rfl : some v.runTask = some v.runTask)] at ok
  have consistent' : Consistent c (v.requeue c) none := by
    refine consistent.acts (View.requeue_acts c v) (fun other different => ?_)
      (v.record v.runTask).requeue_running ?_
    · exact iff_of_false (Option.some_ne_none other).symm
        fun same => different (Option.some.inj same).symm
    · rw [eq_false (Option.some_ne_none v.runTask).symm]
      exact ok.requeue isTime
  refine (?_ : ∃ s', requeueRunTask c s = some s' ∧ Shows s' (v.requeue c)).imp
    fun _ both => ⟨both.1, both.2, consistent'⟩
  simp only [requeueRunTask, View.requeue, shows.task, shows.runTask]
  split
  case isTrue waits =>
    have idle : v.deadline v.runTask = osSortLinkInvalidTime := by
      by_contra timed
      exact (ok.timed.mp timed).1 trivial
    exact shows.time idle isTime (Nat.le_succ_of_le length)
  case isFalse noTime =>
    split
    case isTrue free =>
      simp only [Bool.not_eq_true', Bool.or_eq_false_iff] at free
      obtain ⟨⟨notPend, -⟩, used⟩ := free
      exact shows.enQueue (ok.flags.here trivial) fun _ => ⟨(ok.inside used).1, fun h _ =>
        ok.nowhere_used (ok.flags.here trivial) notPend used h⟩
    case isFalse blocked => exact ⟨s, rfl, shows⟩

end Requeue

/-! ## The first task -/

/-- The first task of the first queue that is not empty. -/
def View.IsTop (c : KernelConfig) (v : View) (taskID : Nat) : Prop :=
  (taskID = c.idleTaskID ∧ ∀ priority, priority < osPriorityQueueNum →
      v.queue (.priQueue priority) = []) ∨
    ∃ priority rest, priority < osPriorityQueueNum ∧
      v.queue (.priQueue priority) = taskID :: rest ∧
      ∀ other, other < priority → v.queue (.priQueue other) = []

section Top

variable {c : KernelConfig} {s : Sched} {v : View} {taskID : Nat}

/-- **`OsGetTopTask`** -/
theorem Shows.top (shows : Shows s v) :
    ∃ newTask, osGetTopTask c s = some newTask ∧ v.IsTop c newTask := by
  by_cases empty : s.queueBitmap = 0
  · refine ⟨c.idleTaskID, if_neg (not_not_intro empty), Or.inl ⟨rfl, fun priority inside => ?_⟩⟩
    by_contra some
    have flag := (shows.bitmap priority inside).mpr some
    rw [empty] at flag
    simp [BitVec.getMsbD] at flag
  · obtain ⟨inside, flag, first⟩ := clz_first s.queueBitmap empty
    have some := (shows.bitmap _ inside).mp flag
    cases tasks : v.queue (.priQueue s.queueBitmap.clz.toNat) with
    | nil => exact absurd tasks some
    | cons newTask rest =>
        refine ⟨newTask, ?_, Or.inr ⟨_, rest, inside, tasks, fun other before => ?_⟩⟩
        · have next := shows.queues.first (h := .priQueue s.queueBitmap.clz.toNat) inside tasks
          rw [osGetTopTask, if_pos empty, next]
          rfl
        · by_contra some
          have flag := (shows.bitmap other (Nat.lt_trans before inside)).mpr some
          rw [first other before] at flag
          exact Bool.false_ne_true flag

/-- The first task is ready. -/
theorem Consistent.top_ready (consistent : Consistent c v none)
    (idleUsed : (v.record c.idleTaskID).status.unused = false) (top : v.IsTop c taskID) :
    (v.record taskID).status.ready = true := by
  have ok := consistent.ok taskID
  rcases top with ⟨isIdle, -⟩ | ⟨priority, rest, -, tasks, -⟩
  · have waits := ok.flags.waits (Option.some_ne_none taskID).symm
    obtain ⟨notPend, notDelay, notSuspend⟩ := ok.flags.idle isIdle
    rw [← isIdle] at idleUsed
    simpa only [idleUsed, notPend, notDelay, notSuspend, Bool.false_eq_true, false_or,
      or_false] using waits
  · have stands : (v.record taskID).stands (.priQueue priority) := by
      show taskID ∈ v.queue (.priQueue priority)
      rw [tasks]
      exact List.mem_cons_self
    exact ((ok.ready priority).mp stands).1

/-- **No ready task is more urgent than the first one.** -/
theorem Consistent.top_first (consistent : Consistent c v none) (top : v.IsTop c taskID)
    {other : Nat} (ready : (v.record other).status.ready = true) (notIdle : other ≠ c.idleTaskID) :
    taskID ≠ c.idleTaskID ∧ (v.task taskID).priority ≤ (v.task other).priority := by
  have ok := consistent.ok other
  obtain ⟨inside, inQueue⟩ : (v.task other).priority < osPriorityQueueNum ∧
      other ∈ v.queue (.priQueue (v.task other).priority) := ok.queued ready notIdle
  rcases top with ⟨-, empty⟩ | ⟨priority, rest, -, tasks, first⟩
  · rw [empty _ inside] at inQueue
    exact absurd inQueue List.not_mem_nil
  · have stands : taskID ∈ v.queue (.priQueue priority) := by
      rw [tasks]
      exact List.mem_cons_self
    obtain ⟨-, notIdle', same⟩ := ((consistent.ok taskID).ready priority).mp stands
    refine ⟨notIdle', ?_⟩
    by_contra less
    rw [first (v.task other).priority (same ▸ Nat.not_le.mp less)] at inQueue
    exact absurd inQueue List.not_mem_nil

end Top

/-! ## The new task -/

/-- The task gets the processor. -/
def View.redirect (v : View) (newTask : Nat) : View :=
  if v.runTask ≠ newTask then
    let startTime := (v.task v.runTask).startTime
    (v.setStatus v.runTask ({ · with running := false })).setTask newTask fun tcb => { tcb with
      taskStatus := { tcb.taskStatus with running := true }, startTime }
  else v

/-- The task leaves its queue for the processor. -/
def View.dispatch (c : KernelConfig) (v : View) (newTask : Nat) : View :=
  { (v.redirect newTask).deQueue c newTask with runTask := newTask, switchPending := false }

/-- The task starts. -/
def View.start (c : KernelConfig) (v : View) (newTask : Nat) (currTime : UInt64) : View :=
  { (v.setTask newTask fun tcb => { tcb with
      taskStatus := { tcb.taskStatus with running := true }
      startTime := currTime }).deQueue c newTask with
    runTask := newTask, taskScheduled := true }

namespace Record

/-- The flag of the running task. -/
def setRunning (running : Bool) (r : Record) : Record := r.setStatus ({ · with running })

/-- A task that gets the processor. -/
def run (c : KernelConfig) (startTime : UInt64) (taskID : Nat) (r : Record) : Record :=
  deQueue c taskID ((r.setTcb ({ · with startTime })).setRunning true)

end Record

/-- One task gets the processor, and the others have not got it. -/
structure Dispatched (c : KernelConfig) (v v' : View) (newTask : Nat) (startTime : UInt64) :
    Prop where
  here : v'.record newTask = (v.record newTask).run c startTime newTask
  others : ∀ taskID, taskID ≠ newTask → ∃ running,
    v'.record taskID = (v.record taskID).setRunning running ∧
      (taskID ≠ c.taskMaxNum → running = false)
  runTask : v'.runTask = newTask

section Dispatch

variable {c : KernelConfig} {s : Sched} {v v' : View} {newTask taskID : Nat} {r : Record}
  {current : Prop} {startTime : UInt64}

/-- The flag of the running task does not matter. -/
theorem Ok.setRunning (ok : Ok c taskID r current) (running : Bool) :
    Ok c taskID (r.setRunning running) current :=
  ⟨⟨ok.flags.ready, ok.flags.pendTime, ok.flags.pend, ok.flags.unused, ok.flags.waits,
    ok.flags.idle⟩, ok.ready, ok.pend, ok.free, ok.heads, ok.timed, ok.inside⟩

theorem Record.run_status (r : Record) :
    (r.run c startTime taskID).status = { r.status with running := true, ready := false } := by
  rw [Record.run, Record.deQueue_status]
  rfl

/-- The record of a task that gets the processor. -/
theorem Ok.run (ok : Ok c taskID r False) (ready : r.status.ready = true) :
    Ok c taskID (r.run c startTime taskID) True := by
  obtain ⟨notPend, notDelay, notSuspend, used, -⟩ := ok.flags.ready ready
  have notPendTime := ok.flags.notPendTime notPend
  have inside := ok.inside used
  have untimed : ¬ r.Timed := by
    rw [ok.timed]
    simp [notDelay, notPendTime]
  have started : Ok c taskID ((r.setTcb ({ · with startTime })).setRunning true) False :=
    (ok.setTcb rfl rfl).setRunning true
  have status : (r.run c startTime taskID).status = _ := r.run_status
  refine ok_nowhere (started.deQueue_nowhere notPend used) ?_ ?_ ?_ ?_ ?_
  · rw [status]
    constructor <;> simp [notPend, notDelay, notSuspend, used, notPendTime]
  · rw [status]
  · rw [status]
    exact notPend
  · refine iff_of_false ?_ fun both => both.1 trivial
    rw [Record.run, Record.Timed, Record.deQueue_deadline]
    exact untimed
  · rw [Record.run, Record.deQueue_priority]
    exact fun _ => inside

/-- **The task that gets the processor keeps the invariant.** -/
theorem Consistent.dispatch (consistent : Consistent c v none)
    (dispatched : Dispatched c v v' newTask startTime)
    (ready : (v.record newTask).status.ready = true) : Consistent c v' (some newTask) := by
  have notCurrent : ∀ t : Nat, (none = some t) = False :=
    fun t => eq_false (Option.some_ne_none t).symm
  constructor
  · intro t
    have ok := consistent.ok t
    rw [notCurrent] at ok
    by_cases here : t = newTask
    · subst here
      rw [dispatched.here, eq_true (rfl : some t = some t)]
      exact ok.run ready
    · obtain ⟨running, same, -⟩ := dispatched.others t here
      rw [same, eq_false fun same => here (Option.some.inj same).symm]
      exact ok.setRunning running
  · intro t isTask
    rw [dispatched.runTask]
    show (v'.record t).status.running = true ↔ _
    by_cases here : t = newTask
    · subst here
      rw [dispatched.here, Record.run_status]
      exact iff_of_true rfl rfl
    · obtain ⟨running, same, stopped⟩ := dispatched.others t here
      rw [same, stopped isTask]
      exact iff_of_false Bool.false_ne_true here

theorem View.redirect_nodup (nodup : ∀ h, (v.queue h).Nodup) (h : Node) :
    ((v.redirect newTask).queue h).Nodup := by
  simp only [View.redirect]
  split <;> exact nodup h

theorem View.redirect_frame (v : View) (newTask : Nat) :
    (v.redirect newTask).queue = v.queue ∧ (v.redirect newTask).globals = v.globals := by
  simp only [View.redirect]
  split <;> exact ⟨rfl, rfl⟩

theorem View.dispatch_acts (c : KernelConfig) (newTask : Nat) (nodup : ∀ h, (v.queue h).Nodup) :
    Acts (v.redirect newTask) ((v.redirect newTask).deQueue c newTask) newTask
      (Record.deQueue c newTask) :=
  View.deQueue_acts (View.redirect_nodup nodup)

theorem View.dispatch_globals (newTask : Nat) (nodup : ∀ h, (v.queue h).Nodup) :
    (v.dispatch c newTask).globals = ⟨newTask, v.taskLock, v.taskScheduled, false⟩ := by
  have same := (acts_globals (View.dispatch_acts c newTask nodup)).trans
    (View.redirect_frame v newTask).2
  exact congrArg (fun g : Globals => (⟨newTask, g.taskLock, g.taskScheduled, false⟩ : Globals)) same

/-- The switch gives the processor to the task. -/
theorem Consistent.dispatched (consistent : Consistent c v none) (nodup : ∀ h, (v.queue h).Nodup)
    (used : (v.record newTask).status.unused = false) :
    Dispatched c v (v.dispatch c newTask) newTask (v.task v.runTask).startTime := by
  have isTask := ((consistent.ok newTask).inside used).2
  have acts := View.dispatch_acts c newTask nodup
  refine ⟨(acts_here acts).trans ?_, fun t different => ?_, rfl⟩
  · rw [Record.run]
    congr 1
    simp only [View.redirect]
    split
    case isTrue other =>
      simp [View.record, View.setTask, View.setStatus, Record.setTcb, Record.setRunning,
        Record.setStatus, Function.update_of_ne (Ne.symm other)]
    case isFalse same =>
      have isRun : newTask = v.runTask := (not_not.mp same).symm
      have flag := (consistent.running newTask (Nat.ne_of_lt isTask)).mpr isRun
      simp only [View.record, Record.setTcb, Record.setRunning, Record.setStatus, ← isRun, ← flag]
  · have same : (v.dispatch c newTask).record t = (v.redirect newTask).record t :=
      acts_others acts different
    rw [same]
    simp only [View.redirect]
    split
    case isTrue other =>
      have set := View.setTask_acts (v.setStatus v.runTask ({ · with running := false })) newTask
        fun tcb => { tcb with
          taskStatus := { tcb.taskStatus with running := true }
          startTime := (v.task v.runTask).startTime }
      have cleared := v.setStatus_acts v.runTask ({ · with running := false })
      rw [acts_others set different]
      by_cases isRun : t = v.runTask
      · subst isRun
        exact ⟨false, acts_here cleared, fun _ => rfl⟩
      · rw [acts_others cleared isRun]
        refine ⟨(v.task t).taskStatus.running, rfl, fun isTask => ?_⟩
        rw [Bool.eq_false_iff, ne_eq, consistent.running t isTask]
        exact isRun
    case isFalse same =>
      refine ⟨(v.task t).taskStatus.running, rfl, fun isTask => ?_⟩
      rw [Bool.eq_false_iff, ne_eq, consistent.running t isTask, not_not.mp same]
      exact different

/-- The task that starts is the first one with the processor. -/
theorem Consistent.started (consistent : Consistent c v none) (nodup : ∀ h, (v.queue h).Nodup)
    (noTask : v.runTask = c.taskMaxNum) (newTask : Nat) (startTime : UInt64) :
    Dispatched c v (v.start c newTask startTime) newTask startTime := by
  have set := v.setTask_acts newTask fun tcb => { tcb with
    taskStatus := { tcb.taskStatus with running := true }, startTime }
  have acts := set.trans (View.deQueue_acts (c := c) nodup)
  have here := acts_here acts
  refine ⟨here, fun t different => ?_, rfl⟩
  have same := acts_others acts different
  refine ⟨(v.task t).taskStatus.running, same, fun isTask => ?_⟩
  rw [Bool.eq_false_iff, ne_eq, consistent.running t isTask, noTask]
  exact isTask

end Dispatch

/-! ## The functions -/

section Functions

variable {c : KernelConfig} {s : Sched} {v : View} {currTime : UInt64}

theorem Record.requeue_startTime (c : KernelConfig) (taskID : Nat) (r : Record) :
    (r.requeue c taskID).tcb.startTime = r.tcb.startTime := by
  have sliced : (r.tcb.sliced c).startTime = r.tcb.startTime := by
    rw [LosTaskCB.sliced]
    split <;> rfl
  simp only [Record.requeue]
  split
  · rfl
  · split
    · rw [Record.enQueue]
      split
      · exact sliced
      · rfl
    · rfl

/-- A ready task leaves its queue. -/
theorem Shows.leave (shows : Shows s v) (taskID : Nat)
    (queued : taskID ≠ c.idleTaskID → (v.record taskID).Queued) :
    ∃ s', osSchedTaskDeQueue c s taskID = some s' ∧ Shows s' (v.deQueue c taskID) :=
  shows.deQueue fun _ notIdle => ⟨(queued notIdle).1, (queued notIdle).2⟩

theorem Shows.redirect (shows : Shows s v) (newTask : Nat) :
    Shows (redirectRunTask s newTask) (v.redirect newTask) := by
  simp only [redirectRunTask, View.redirect, shows.runTask, shows.task]
  split
  · exact (shows.setStatus v.runTask ({ · with running := false })).setTask newTask _
  · exact shows

theorem View.redirect_priority (v : View) (newTask : Nat) :
    ((v.redirect newTask).record newTask).tcb.priority = (v.record newTask).tcb.priority := by
  simp only [View.redirect]
  split
  case isTrue other =>
    simp [View.record, View.setTask, View.setStatus, Function.update_of_ne (Ne.symm other)]
  case isFalse => rfl

/-- **`OsSchedTaskSwitch`** runs, and the first task of the first queue has the processor. -/
theorem Good.switch (good : Good c s v (some v.runTask))
    (idleUsed : (v.record c.idleTaskID).status.unused = false)
    (forward : (v.record v.runTask).tcb.startTime ≤ currTime) (clock : c.Clock currTime) :
    ∃ s' v₁ v' newTask, osSchedTaskSwitch c s currTime = some s' ∧
      Acts v v₁ v.runTask (Record.slice c currTime v.runTask) ∧
      Consistent c (v₁.requeue c) none ∧ (v₁.requeue c).IsTop c newTask ∧
      Dispatched c (v₁.requeue c) v' newTask currTime ∧
      v'.globals = ⟨newTask, v.taskLock, v.taskScheduled, false⟩ ∧ Good c s' v' (some newTask) := by
  obtain ⟨s₁, v₁, sliced, good₁, acts⟩ := good.slice forward
  have runTask := acts_runTask acts
  have startTime : (v₁.record v₁.runTask).tcb.startTime = currTime := by
    rw [runTask, acts_here acts]
    rfl
  rw [← runTask] at good₁
  have requeued := View.requeue_acts c v₁
  obtain ⟨s₂, requeue, good₂⟩ := good₁.requeue
    (by rw [LosTaskCB.responseTime, show (v₁.task v₁.runTask).startTime = currTime from startTime]
        exact clock.isTime _)
  obtain ⟨newTask, found, top⟩ := good₂.shows.top (c := c)
  have idleUsed₂ : ((v₁.requeue c).record c.idleTaskID).status.unused = false :=
    (acts_field requeued (f := fun r => r.status.unused) (Record.requeue_unused _) _).trans
      ((acts_field acts (f := fun r => r.status.unused) rfl _).trans idleUsed)
  have ready := good₂.consistent.top_ready idleUsed₂ top
  have ok := good₂.consistent.ok newTask
  have used := (ok.flags.ready ready).2.2.2.1
  have dispatched := good₂.consistent.dispatched good₂.shows.nodup used
  have start : ((v₁.requeue c).task (v₁.requeue c).runTask).startTime = currTime := by
    rw [acts_runTask requeued]
    have record := congrArg (fun r : Record => r.tcb.startTime) (acts_here requeued)
    exact record.trans ((Record.requeue_startTime c _ _).trans startTime)
  rw [start] at dispatched
  have consistent' := good₂.consistent.dispatch dispatched ready
  obtain ⟨s₃, dequeued, shows₄⟩ := (good₂.shows.redirect newTask).leave newTask fun notIdle => by
    obtain ⟨inside, stands⟩ := ok.queued ready notIdle
    have same := (v₁.requeue c).redirect_priority newTask
    refine ⟨same ▸ inside, ?_⟩
    show newTask ∈ ((v₁.requeue c).redirect newTask).queue (.priQueue _)
    rw [same, (View.redirect_frame _ newTask).1]
    exact stands
  refine ⟨{ s₃ with runTask := newTask, switchPending := false }, v₁,
    (v₁.requeue c).dispatch c newTask, newTask, ?_, acts.congr rfl, good₂.consistent, top, dispatched, ?_,
    ?_, consistent'⟩
  · simp only [osSchedTaskSwitch, sliced, requeue, found, dequeued, Option.bind_eq_bind,
      Option.bind_some]
    rfl
  · rw [View.dispatch_globals newTask good₂.shows.nodup]
    have same := (acts_globals requeued).trans (acts_globals acts)
    exact congrArg (fun g : Globals => (⟨newTask, g.taskLock, g.taskScheduled, false⟩ : Globals)) same
  · exact { shows₄ with runTask := rfl, switchPending := rfl }

/-- **`OsSchedStart`** gives the processor to the first task. -/
theorem Good.start (good : Good c s v none) (noTask : v.runTask = c.taskMaxNum)
    (idleUsed : (v.record c.idleTaskID).status.unused = false) (currTime : UInt64) :
    ∃ s' v' newTask, osSchedStart c s currTime = some s' ∧ v.IsTop c newTask ∧
      Dispatched c v v' newTask currTime ∧
      v'.globals = ⟨newTask, v.taskLock, true, v.switchPending⟩ ∧ Good c s' v' (some newTask) := by
  obtain ⟨newTask, found, top⟩ := good.shows.top (c := c)
  have ready := good.consistent.top_ready idleUsed top
  have started := good.consistent.started good.shows.nodup noTask newTask currTime
  have shows := good.shows.setTask newTask fun tcb => { tcb with
    taskStatus := { tcb.taskStatus with running := true }, startTime := currTime }
  obtain ⟨s', dequeued, shows'⟩ := shows.leave newTask fun notIdle => by
    rw [acts_here (v.setTask_acts newTask _)]
    exact (good.consistent.ok newTask).queued ready notIdle
  refine ⟨{ s' with runTask := newTask, taskScheduled := true }, v.start c newTask currTime,
    newTask, ?_, top, started, ?_, ?_, good.consistent.dispatch started ready⟩
  · simp only [osSchedStart, found, dequeued, Option.bind_eq_bind, Option.bind_some]
    rfl
  · have acts := (v.setTask_acts newTask fun tcb => { tcb with
      taskStatus := { tcb.taskStatus with running := true }, startTime := currTime }).trans
        (View.deQueue_acts (c := c) good.shows.nodup)
    exact congrArg (fun g : Globals => (⟨newTask, g.taskLock, true, g.switchPending⟩ : Globals))
      (acts_globals acts)
  · exact { shows' with runTask := rfl, taskScheduled := rfl }

end Functions

end EinkLiteOS.Kernel
