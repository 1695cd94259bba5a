/-
# Kernel.SchedInvariant -- the status of the tasks and the lists

`Ok` says how the status of a task, the lists it stands in and its deadline belong together, for
the task that has the processor and for the others; `Consistent` says it of all tasks.  A
function of the scheduler changes the record of one task, so it keeps the invariant if it keeps
`Ok` there (`Consistent.acts`).
-/
import EinkLiteOS.Kernel.SchedRecord

namespace EinkLiteOS.Kernel

open EinkLiteOS.Theory

set_option autoImplicit false

/-- The flags of a status belong together. -/
structure FlagsOk (status : TaskStatus) (isIdle current : Prop) : Prop where
  ready : status.ready = true →
    status.pend = false ∧ status.delay = false ∧ status.suspend = false ∧ status.unused = false ∧
      ¬ current
  pendTime : status.pendTime = true → status.pend = true
  pend : status.pend = true → status.delay = false
  unused : status.unused = true →
    status.pend = false ∧ status.delay = false ∧ status.suspend = false
  waits : ¬ current → status.unused = true ∨ status.ready = true ∨ status.pend = true ∨
    status.delay = true ∨ status.suspend = true
  idle : isIdle → status.pend = false ∧ status.delay = false ∧ status.suspend = false

/-- The record of a task fits its status.  A task that is being created may be in no list and not
exist yet. -/
structure Ok (c : KernelConfig) (taskID : Nat) (r : Record) (current : Prop) : Prop where
  flags : FlagsOk r.status (taskID = c.idleTaskID) current
  ready : ∀ priority, r.stands (.priQueue priority) ↔
    r.status.ready = true ∧ taskID ≠ c.idleTaskID ∧ r.tcb.priority = priority
  pend : (∃ h : Node, h.Waits ∧ r.stands h) ↔ r.status.pend = true
  free : r.stands .freeTask ∨ r.stands .taskRecyle →
    r.status.unused = true ∧ taskID < c.taskMaxNum
  heads : ∀ h, r.stands h → h.IsHead
  timed : r.Timed ↔ ¬ current ∧ (r.status.delay = true ∨ r.status.pendTime = true)
  inside : r.status.unused = false → r.tcb.priority < osPriorityQueueNum ∧ taskID < c.taskMaxNum

/-- The records of all tasks fit; `current` is the task that has the processor.  What stands in
for a deleted task may have the flag of the running one. -/
structure Consistent (c : KernelConfig) (v : View) (current : Option Nat) : Prop where
  ok : ∀ taskID, Ok c taskID (v.record taskID) (current = some taskID)
  running : ∀ taskID, taskID ≠ c.taskMaxNum →
    ((v.task taskID).taskStatus.running = true ↔ taskID = v.runTask)

/-! ## Flags -/

section Flags

variable {status : TaskStatus} {isIdle current : Prop}

/-- The task waits, or is held back. -/
def TaskStatus.Blocked (status : TaskStatus) : Prop :=
  status.pend = true ∨ status.delay = true ∨ status.suspend = true

theorem FlagsOk.used (flags : FlagsOk status isIdle current) (blocked : status.Blocked) :
    status.unused = false := by
  by_contra unused
  obtain ⟨pend, delay, suspend⟩ := flags.unused (by simpa using unused)
  simp [TaskStatus.Blocked, pend, delay, suspend] at blocked

theorem FlagsOk.notReady (flags : FlagsOk status isIdle current) (blocked : status.Blocked) :
    status.ready = false := by
  by_contra ready
  obtain ⟨pend, delay, suspend, -⟩ := flags.ready (by simpa using ready)
  simp [TaskStatus.Blocked, pend, delay, suspend] at blocked

theorem FlagsOk.notIdle (flags : FlagsOk status isIdle current) (blocked : status.Blocked) :
    ¬ isIdle := by
  intro isIdle
  obtain ⟨pend, delay, suspend⟩ := flags.idle isIdle
  simp [TaskStatus.Blocked, pend, delay, suspend] at blocked

/-- The task that has the processor is not ready. -/
theorem FlagsOk.here (flags : FlagsOk status isIdle current) (here : current) :
    status.ready = false :=
  Bool.eq_false_iff.mpr fun ready => (flags.ready ready).2.2.2.2 here

theorem FlagsOk.notPendTime (flags : FlagsOk status isIdle current)
    (notPend : status.pend = false) : status.pendTime = false :=
  Bool.eq_false_iff.mpr fun set => Bool.false_ne_true (notPend.symm.trans (flags.pendTime set))

/-- The flags of a task that is not ready and waits for nothing. -/
theorem flagsOk_suspended (used : status.unused = false) (notReady : status.ready = false)
    (notPend : status.pend = false) (notPendTime : status.pendTime = false) (notIdle : ¬ isIdle)
    (suspended : ¬ current → status.suspend = true) : FlagsOk status isIdle current where
  ready := by simp [notReady]
  pendTime := by simp [notPendTime]
  pend := by simp [notPend]
  unused := by simp [used]
  waits notCurrent := by simp [suspended notCurrent]
  idle isIdle := absurd isIdle notIdle

end Flags

/-! ## Records that fit -/

section Fits

variable {c : KernelConfig} {taskID : Nat} {r : Record} {current : Prop}

/-- A task that is neither ready nor waits stands nowhere. -/
theorem Ok.nowhere (ok : Ok c taskID r current) (notReady : r.status.ready = false)
    (notPend : r.status.pend = false) (used : r.status.unused = true → c.taskMaxNum ≤ taskID)
    (h : Node) : ¬ r.stands h := by
  intro stands
  cases h with
  | priQueue priority =>
      exact Bool.false_ne_true (notReady.symm.trans ((ok.ready priority).mp stands).1)
  | eventList | readWriteList =>
      exact Bool.false_ne_true (notPend.symm.trans (ok.pend.mp ⟨_, by trivial, stands⟩))
  | freeTask =>
      obtain ⟨unused, isTask⟩ := ok.free (Or.inl stands)
      exact absurd isTask (Nat.not_lt.mpr (used unused))
  | taskRecyle =>
      obtain ⟨unused, isTask⟩ := ok.free (Or.inr stands)
      exact absurd isTask (Nat.not_lt.mpr (used unused))
  | pendList => exact ok.heads _ stands

/-- A task that is used, not ready and does not wait stands nowhere. -/
theorem Ok.nowhere_used (ok : Ok c taskID r current) (notReady : r.status.ready = false)
    (notPend : r.status.pend = false) (used : r.status.unused = false) (h : Node) :
    ¬ r.stands h :=
  ok.nowhere notReady notPend (fun unused => absurd (used.symm.trans unused) Bool.false_ne_true) h

/-- A ready task is in its queue. -/
theorem Ok.queued (ok : Ok c taskID r current) (ready : r.status.ready = true)
    (notIdle : taskID ≠ c.idleTaskID) : r.Queued :=
  ⟨(ok.inside (ok.flags.ready ready).2.2.2.1).1, (ok.ready _).mpr ⟨ready, notIdle, rfl⟩⟩

theorem LosTaskCB.sliced_status (tcb : LosTaskCB) :
    (tcb.sliced c).taskStatus = tcb.taskStatus := by
  rw [LosTaskCB.sliced]
  split <;> rfl

theorem LosTaskCB.sliced_priority (tcb : LosTaskCB) : (tcb.sliced c).priority = tcb.priority := by
  rw [LosTaskCB.sliced]
  split <;> rfl

@[simp] theorem Record.enQueue_status (r : Record) :
    (r.enQueue c taskID).status = r.status.readied := by
  simp only [Record.enQueue, Record.status, Record.setStatus_tcb]
  split
  · rw [Record.link_tcb, Record.setTcb_tcb, LosTaskCB.sliced_status]
  · rfl

@[simp] theorem Record.enQueue_priority (r : Record) :
    (r.enQueue c taskID).tcb.priority = r.tcb.priority := by
  simp only [Record.enQueue, Record.setStatus_tcb]
  split
  · rw [Record.link_tcb, Record.setTcb_tcb, LosTaskCB.sliced_priority]
  · rfl

@[simp] theorem Record.enQueue_deadline (r : Record) :
    (r.enQueue c taskID).deadline = r.deadline := by
  simp only [Record.enQueue, Record.setStatus_deadline]
  split <;> rfl

@[simp] theorem Record.enQueue_stands (r : Record) (h : Node) :
    (r.enQueue c taskID).stands h ↔
      r.stands h ∨ (taskID ≠ c.idleTaskID ∧ h = .priQueue r.tcb.priority) := by
  simp only [Record.enQueue, Record.setStatus_stands]
  split <;> simp_all

/-- A task that is in no list and is put into its queue. -/
theorem ok_enQueue (nowhere : ∀ h, ¬ r.stands h) (untimed : ¬ r.Timed)
    (used : r.status.unused = false) (inside : r.tcb.priority < osPriorityQueueNum)
    (isTask : taskID < c.taskMaxNum) : Ok c taskID (r.enQueue c taskID) False where
  flags := by
    rw [Record.enQueue_status]
    constructor <;> simp [TaskStatus.readied, used]
  ready priority := by simp [TaskStatus.readied, nowhere, eq_comm]
  pend := by
    refine iff_of_false ?_ (by simp [TaskStatus.readied])
    rintro ⟨h, waits, stands⟩
    rcases Record.enQueue_stands r h |>.mp stands with stands | ⟨-, rfl⟩
    · exact nowhere h stands
    · exact waits
  free := by simp [TaskStatus.readied, nowhere, used]
  heads h stands := by
    rcases Record.enQueue_stands r h |>.mp stands with stands | ⟨-, rfl⟩
    · exact absurd stands (nowhere h)
    · exact inside
  timed := by
    refine iff_of_false ?_ (by simp [TaskStatus.readied])
    rw [Record.Timed, Record.enQueue_deadline]
    exact untimed
  inside _ := by
    rw [Record.enQueue_priority]
    exact ⟨inside, isTask⟩

/-- A task that is in no list and waits for nothing but a time. -/
theorem ok_nowhere (nowhere : ∀ h, ¬ r.stands h)
    (flags : FlagsOk r.status (taskID = c.idleTaskID) current) (notReady : r.status.ready = false)
    (notPend : r.status.pend = false) (timed : r.Timed ↔ ¬ current ∧ r.status.delay = true)
    (inside : r.status.unused = false →
      r.tcb.priority < osPriorityQueueNum ∧ taskID < c.taskMaxNum) : Ok c taskID r current where
  flags := flags
  ready priority := iff_of_false (nowhere _) (by simp [notReady])
  pend := iff_of_false (fun waits => waits.elim fun h here => nowhere h here.2) (by simp [notPend])
  free either := (either.elim (nowhere _) (nowhere _)).elim
  heads h stands := absurd stands (nowhere h)
  timed := by
    rw [timed, flags.notPendTime notPend]
    simp
  inside := inside

/-- A suspended task, in no list and without a deadline. -/
theorem ok_suspended (nowhere : ∀ h, ¬ r.stands h) (untimed : ¬ r.Timed)
    (used : r.status.unused = false) (notReady : r.status.ready = false)
    (notPend : r.status.pend = false) (notPendTime : r.status.pendTime = false)
    (notDelay : r.status.delay = false) (notIdle : taskID ≠ c.idleTaskID)
    (suspended : ¬ current → r.status.suspend = true)
    (inside : r.tcb.priority < osPriorityQueueNum ∧ taskID < c.taskMaxNum) :
    Ok c taskID r current :=
  ok_nowhere nowhere (flagsOk_suspended used notReady notPend notPendTime notIdle suspended)
    notReady notPend (iff_of_false untimed (by simp [notDelay])) fun _ => inside

/-- The status and the priority are all of a control block that matters. -/
theorem Ok.setTcb (ok : Ok c taskID r current) {tcb : LosTaskCB → LosTaskCB}
    (status : (tcb r.tcb).taskStatus = r.status)
    (priority : (tcb r.tcb).priority = r.tcb.priority) : Ok c taskID (r.setTcb tcb) current := by
  constructor
  case flags =>
    rw [Record.setTcb_status, status]
    exact ok.flags
  case ready =>
    rw [Record.setTcb_status, status, Record.setTcb_tcb, priority]
    exact ok.ready
  case pend =>
    rw [Record.setTcb_status, status]
    exact ok.pend
  case free =>
    rw [Record.setTcb_status, status]
    exact ok.free
  case heads => exact ok.heads
  case timed =>
    rw [Record.setTcb_status, status]
    exact ok.timed
  case inside =>
    rw [Record.setTcb_status, status, Record.setTcb_tcb, priority]
    exact ok.inside

end Fits

/-! ## The views -/

section Views

variable {c : KernelConfig} {v v' : View} {taskID : Nat} {change : Record → Record}
  {current current' : Option Nat}

/-- **A change of one record keeps the invariant** if the record fits afterwards. -/
theorem Consistent.acts (consistent : Consistent c v current)
    (acts : Acts v v' taskID change)
    (same : ∀ other, other ≠ taskID → (current' = some other ↔ current = some other))
    (running : (change (v.record taskID)).status.running = (v.record taskID).status.running)
    (ok : Ok c taskID (change (v.record taskID)) (current' = some taskID)) :
    Consistent c v' current' := by
  have runTask := acts_runTask acts
  constructor
  · refine acts.every (P := fun other r => Ok c other r (current' = some other)) ok ?_
    intro other different
    rw [propext (same other different)]
    exact consistent.ok other
  · rw [runTask]
    refine acts.every (P := fun other r => other ≠ c.taskMaxNum →
      (r.status.running = true ↔ other = v.runTask)) ?_ fun other _ => consistent.running other
    rw [running]
    exact consistent.running taskID

/-- The pointers show a view in which everything fits. -/
structure Good (c : KernelConfig) (s : Sched) (v : View) (current : Option Nat) : Prop where
  shows : Shows s v
  consistent : Consistent c v current

/-- A function gives a good state in which the record of one task is another one. -/
def Keeps (c : KernelConfig) (v : View) (current : Option Nat) (taskID : Nat)
    (result : Option Sched) (r : Record) : Prop :=
  ∃ s v', result = some s ∧ Good c s v' current ∧ Acts v v' taskID fun _ => r

/-- **A function that works on one task keeps the invariant** if the record of that task fits
afterwards. -/
theorem Consistent.keeps (consistent : Consistent c v current) {result : Option Sched} {r : Record}
    (gives : Gives v taskID result r)
    (running : r.status.running = (v.record taskID).status.running)
    (ok : Ok c taskID r (current = some taskID)) : Keeps c v current taskID result r := by
  obtain ⟨s, ran, v', shows, acts⟩ := gives
  exact ⟨s, v', ran, ⟨shows, consistent.acts acts (fun _ _ => Iff.rfl) running ok⟩, acts⟩

end Views

end EinkLiteOS.Kernel
