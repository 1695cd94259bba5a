/-
# Kernel.Task -- the calls of the tasks

`kernel/src/los_task.c`.  A call works with interrupts off, on the record of one task; where it
calls `LOS_Schedule`, it does so when they are on again, so this is a step of its own and is only
noted in the outcome.  `LOS_TaskDelay` and `LOS_TaskCreate` work with interrupts off more than once
or not at first, and are cut where they are on.  A call either refuses and leaves everything as it
was, or does what it is for and keeps the invariant (`Performs`).
-/
import EinkLiteOS.Kernel.SchedSwitch

namespace EinkLiteOS.Kernel

open EinkLiteOS.Theory EinkLiteOS.Theory.RingList

set_option autoImplicit false

/-! ## Results -/

/-- `LOS_ERRTYPE_ERROR` -/
def losErrtypeError : BitVec 32 := 0x02000000#32

/-- `LOS_ERRNO_OS_ERROR` -/
def losErrnoOsError (moduleID errno : BitVec 32) : BitVec 32 :=
  losErrtypeError ||| moduleID <<< 8 ||| errno

/-- `LOS_ERRNO_OS_FATAL` -/
def losErrnoOsFatal (moduleID errno : BitVec 32) : BitVec 32 :=
  0x03000000#32 ||| moduleID <<< 8 ||| errno

def losOk : BitVec 32 := 0
def losModTsk : BitVec 32 := 0x2#32
def losErrnoTskNoMemory : BitVec 32 := losErrnoOsFatal losModTsk 0x00#32
def losErrnoTskPriorError : BitVec 32 := losErrnoOsError losModTsk 0x03#32
def losErrnoTskEntryNull : BitVec 32 := losErrnoOsError losModTsk 0x04#32
def losErrnoTskNameEmpty : BitVec 32 := losErrnoOsError losModTsk 0x05#32
def losErrnoTskStkszTooSmall : BitVec 32 := losErrnoOsError losModTsk 0x06#32
def losErrnoTskIDInvalid : BitVec 32 := losErrnoOsError losModTsk 0x07#32
def losErrnoTskAlreadySuspended : BitVec 32 := losErrnoOsError losModTsk 0x08#32
def losErrnoTskNotSuspended : BitVec 32 := losErrnoOsError losModTsk 0x09#32
def losErrnoTskNotCreated : BitVec 32 := losErrnoOsError losModTsk 0x0a#32
def losErrnoTskDelayInInt : BitVec 32 := losErrnoOsFatal losModTsk 0x0d#32
def losErrnoTskDelayInLock : BitVec 32 := losErrnoOsError losModTsk 0x0e#32
def losErrnoTskTcbUnavailable : BitVec 32 := losErrnoOsError losModTsk 0x11#32
def losErrnoTskOperateIdle : BitVec 32 := losErrnoOsError losModTsk 0x14#32
def losErrnoTskSuspendLocked : BitVec 32 := losErrnoOsFatal losModTsk 0x15#32
def losErrnoTskStkszTooLarge : BitVec 32 := losErrnoOsError losModTsk 0x20#32
def losErrnoTskSuspendSwtmrNotAllowed : BitVec 32 := losErrnoOsError losModTsk 0x21#32
def losErrnoTskOperateSwtmr : BitVec 32 := losErrnoOsError losModTsk 0x22#32

/-- What a call leaves; `schedule` is that `LOS_Schedule` is called now. -/
structure Outcome where
  sched : Sched
  ret : BitVec 32
  schedule : Bool

/-- The call fails. -/
def Sched.refuse (s : Sched) (ret : BitVec 32) : Outcome := ⟨s, ret, false⟩

/-! ## The calls -/

/-- `OsCheckTaskIDValid` -/
def osCheckTaskIDValid (c : KernelConfig) (taskID : Nat) : BitVec 32 :=
  if taskID = c.idleTaskID then losErrnoTskOperateIdle
  else if taskID = c.swtmrTaskID then losErrnoTskSuspendSwtmrNotAllowed
  else if c.taskMaxNum ≤ taskID then losErrnoTskIDInvalid
  else losOk

/-- `LOS_TaskYield` -/
def losTaskYield (s : Sched) : Outcome := ⟨osSchedYield s, losOk, true⟩

/-- What `LOS_TaskDelay` looks at with interrupts on. -/
def losTaskDelayCheck (s : Sched) (intActive : Bool) : BitVec 32 :=
  if intActive then losErrnoTskDelayInInt
  else if s.taskLock ≠ 0 then losErrnoTskDelayInLock
  else losOk

/-- The rest of `LOS_TaskDelay`. -/
def losTaskDelay (s : Sched) (tick : UInt32) : Outcome :=
  if tick = 0 then losTaskYield s else ⟨osSchedDelay s tick, losOk, true⟩

/-- `LOS_TaskLock` -/
def losTaskLock (s : Sched) : Outcome := ⟨{ s with taskLock := s.taskLock + 1 }, losOk, false⟩

/-- `LOS_TaskUnlock` -/
def losTaskUnlock (s : Sched) : Outcome :=
  if 0 < s.taskLock then
    ⟨{ s with taskLock := s.taskLock - 1 }, losOk, s.taskLock - 1 = 0⟩
  else ⟨s, losOk, false⟩

/-- `LOS_TaskSuspend` -/
def losTaskSuspend (c : KernelConfig) (s : Sched) (taskID : Nat) : Option Outcome :=
  let retErr := osCheckTaskIDValid c taskID
  let tempStatus := (s.task taskID).taskStatus
  if retErr ≠ losOk then some (s.refuse retErr)
  else if tempStatus.unused then some (s.refuse losErrnoTskNotCreated)
  else if tempStatus.suspend then some (s.refuse losErrnoTskAlreadySuspended)
  else if tempStatus.running && s.taskLock ≠ 0 then some (s.refuse losErrnoTskSuspendLocked)
  else do
    let s ← (if tempStatus.ready then osSchedTaskDeQueue c s taskID else pure s)
    return ⟨s.setStatus taskID ({ · with suspend := true }), losOk, taskID = s.runTask⟩

/-- `LOS_TaskResume` -/
def losTaskResume (c : KernelConfig) (s : Sched) (taskID : Nat) : Option Outcome :=
  let tempStatus := (s.task taskID).taskStatus
  if c.taskMaxNum ≤ taskID then some (s.refuse losErrnoTskIDInvalid)
  else if tempStatus.unused then some (s.refuse losErrnoTskNotCreated)
  else if !tempStatus.suspend then some (s.refuse losErrnoTskNotSuspended)
  else
    let s := s.setStatus taskID ({ · with suspend := false })
    let status := (s.task taskID).taskStatus
    if !(status.delay || status.pend || status.suspend) then do
      let s ← osSchedTaskEnQueue c s taskID
      return ⟨s, losOk, s.taskScheduled⟩
    else some ⟨s, losOk, false⟩

/-- `LOS_TaskPriSet` -/
def losTaskPriSet (c : KernelConfig) (s : Sched) (taskID : Nat) (taskPrio : UInt16) :
    Option Outcome :=
  let status := (s.task taskID).taskStatus
  if 31 < taskPrio then some (s.refuse losErrnoTskPriorError)
  else if taskID = c.idleTaskID then some (s.refuse losErrnoTskOperateIdle)
  else if taskID = c.swtmrTaskID then some (s.refuse losErrnoTskOperateSwtmr)
  else if c.taskMaxNum ≤ taskID then some (s.refuse losErrnoTskIDInvalid)
  else if status.unused then some (s.refuse losErrnoTskNotCreated)
  else do
    let s ← osSchedModifyTaskSchedParam c s taskID taskPrio.toNat
    return ⟨s, losOk, status.ready || status.running⟩

/-- `OS_TASK_STATUS_UNUSED` -/
def osTaskStatusUnused : TaskStatus :=
  ⟨true, false, false, false, false, false, false, false⟩

/-- `OS_TASK_STATUS_SUSPEND` -/
def osTaskStatusSuspend : TaskStatus :=
  ⟨false, true, false, false, false, false, false, false⟩

/-- `OsRunningTaskDelete` -/
def osRunningTaskDelete (c : KernelConfig) (s : Sched) (taskID : Nat) : Option Sched := do
  let s ← s.listTailInsert .taskRecyle taskID
  let s := { s with runTask := c.taskMaxNum }
  return s.setStatus s.runTask fun _ => { (s.task taskID).taskStatus with running := true }

/-- `LOS_TaskDelete`; the stack is left out. -/
def losTaskDelete (c : KernelConfig) (s : Sched) (taskID : Nat) : Option Outcome :=
  let ret := osCheckTaskIDValid c taskID
  let status := (s.task taskID).taskStatus
  if ret ≠ losOk then some (s.refuse ret)
  else if status.unused then some (s.refuse losErrnoTskNotCreated)
  else do
    let s := if status.running && s.taskLock ≠ 0 then { s with taskLock := 0 } else s
    let s ← osSchedTaskExit c s taskID
    let s := s.setTask taskID ({ · with eventMask := 0 })
    let running := (s.task taskID).taskStatus.running
    let s := s.setStatus taskID fun _ => osTaskStatusUnused
    if running then
      let s ← osRunningTaskDelete c s taskID
      return ⟨s, losOk, true⟩
    else
      let s ← s.listAdd .freeTask taskID
      return ⟨s, losOk, false⟩

/-- The loop of `OsRecyleFinishedTask`, as far as the fuel lasts. -/
def recycleTasks : Nat → Sched → Option Sched
  | 0, _ => none
  | fuel + 1, s =>
      if losListEmpty s.links .taskRecyle then some s
      else do
        let first ← s.links.next .taskRecyle
        let taskID ← first.tcb
        let s ← s.listDelete taskID
        let s ← s.listAdd .freeTask taskID
        recycleTasks fuel s

/-- `OsRecyleFinishedTask` -/
def osRecyleFinishedTask (c : KernelConfig) (s : Sched) : Option Sched :=
  recycleTasks (c.taskMaxNum + 1) s

/-- `TSK_INIT_PARAM_S`, as far as it is looked at; a null pointer is `none`. -/
structure TskInitParam where
  pfnTaskEntry : Option Nat
  usTaskPrio : UInt16
  pcName : Option String
  uwStackSize : UInt32

/-- `OsTaskInitParamCheck`, of a parameter that is there. -/
def osTaskInitParamCheck (osIdleTask : Nat) (taskInitParam : TskInitParam) : BitVec 32 :=
  let uwStackSize :=
    if taskInitParam.uwStackSize = 0 then 0x2D0 else taskInitParam.uwStackSize
  if taskInitParam.pcName = none then losErrnoTskNameEmpty
  else if taskInitParam.pfnTaskEntry = none then losErrnoTskEntryNull
  else if 31 < taskInitParam.usTaskPrio then losErrnoTskPriorError
  else if taskInitParam.usTaskPrio = 31 ∧ taskInitParam.pfnTaskEntry ≠ some osIdleTask then
    losErrnoTskPriorError
  else if 0x8000 < taskInitParam.uwStackSize then losErrnoTskStkszTooLarge
  else if (uwStackSize + 7) &&& ~~~7 < 0x130 then losErrnoTskStkszTooSmall
  else losOk

/-- `OsNewTaskInit` -/
def osNewTaskInit (s : Sched) (taskID : Nat) (taskInitParam : TskInitParam) : Sched :=
  { s.setTask taskID fun tcb => { tcb with
      taskStatus := osTaskStatusSuspend, priority := taskInitParam.usTaskPrio.toNat
      timeSlice := 0, waitTimes := 0, eventMask := 0 } with
    sortLink := { s.sortLink with
      responseTime := Function.update s.sortLink.responseTime (some taskID)
        osSortLinkInvalidTime } }

/-- `LOS_TaskCreateOnly`, as far as the finished tasks are recycled. -/
def losTaskCreateCheck (c : KernelConfig) (s : Sched) (taskInitParam : TskInitParam) :
    Option Outcome :=
  let retVal := osTaskInitParamCheck c.osIdleTask taskInitParam
  if retVal ≠ losOk then some (s.refuse retVal)
  else do
    let s ← osRecyleFinishedTask c s
    return ⟨s, losOk, false⟩

/-- `LOS_TaskCreateOnly` takes a free task. -/
def losTaskCreateTake (s : Sched) : Option (Outcome × Option Nat) :=
  if losListEmpty s.links .freeTask then some (s.refuse losErrnoTskTcbUnavailable, none)
  else do
    let first ← s.links.next .freeTask
    let taskID ← first.tcb
    let s ← s.listDelete taskID
    return (⟨s, losOk, false⟩, some taskID)

/-- The rest of `LOS_TaskCreateOnly`; `memory` is that there is a stack for the task. -/
def losTaskCreateOnly (s : Sched) (taskID : Nat) (taskInitParam : TskInitParam) (memory : Bool) :
    Option Outcome :=
  if !memory then do
    let s ← s.listAdd .freeTask taskID
    return s.refuse losErrnoTskNoMemory
  else some ⟨osNewTaskInit s taskID taskInitParam, losOk, false⟩

/-- The rest of `LOS_TaskCreate`: it does not look at the task again. -/
def losTaskCreate (c : KernelConfig) (s : Sched) (taskID : Nat) : Option Outcome := do
  let s ← osSchedTaskEnQueue c s taskID
  return ⟨s, losOk, s.taskScheduled⟩

/-! ## What they do to the record -/

namespace Record

/-- `LOS_TaskSuspend` -/
def suspend (c : KernelConfig) (taskID : Nat) (r : Record) : Record :=
  (r.deQueue c taskID).setStatus ({ · with suspend := true })

/-- `LOS_TaskResume` -/
def resume (c : KernelConfig) (taskID : Nat) (r : Record) : Record :=
  let r' := r.setStatus ({ · with suspend := false })
  if !(r.status.delay || r.status.pend) then r'.enQueue c taskID else r'

/-- The task exists no longer. -/
def clear (c : KernelConfig) (taskID : Nat) (r : Record) : Record :=
  ((r.exit c taskID).setTcb ({ · with eventMask := 0 })).setStatus fun _ => osTaskStatusUnused

/-- `OsNewTaskInit` -/
def newTask (taskInitParam : TskInitParam) (r : Record) : Record :=
  r.setTcb fun tcb => { tcb with
    taskStatus := osTaskStatusSuspend, priority := taskInitParam.usTaskPrio.toNat
    timeSlice := 0, waitTimes := 0, eventMask := 0 }

end Record

/-- A call changes the record of one task and keeps the invariant. -/
def Performs (c : KernelConfig) (v : View) (current : Option Nat) (taskID : Nat)
    (change : Record → Record) (schedule : Bool) (result : Option Outcome) : Prop :=
  ∃ s v', result = some ⟨s, losOk, schedule⟩ ∧ Good c s v' current ∧ Acts v v' taskID change

/-- A call is refused. -/
def Refused (s : Sched) (result : Option Outcome) : Prop :=
  ∃ ret, ret ≠ losOk ∧ result = some (s.refuse ret)

section Calls

variable {c : KernelConfig} {s : Sched} {v : View} {taskID : Nat} {r : Record} {current : Prop}

/-! ## `LOS_TaskSuspend` and `LOS_TaskResume` -/

theorem Record.deQueue_ready (r : Record) :
    (if r.status.ready then r.deQueue c taskID else r) = r.deQueue c taskID := by
  rw [Record.deQueue]
  split <;> rfl

@[simp] theorem Record.suspend_status (r : Record) :
    (r.suspend c taskID).status = { r.status with ready := false, suspend := true } := by
  rw [Record.suspend, Record.setStatus_status, Record.deQueue_status]

theorem Ok.suspend (ok : Ok c taskID r current) (used : r.status.unused = false)
    (notIdle : taskID ≠ c.idleTaskID) : Ok c taskID (r.suspend c taskID) current := by
  have inside := ok.inside used
  cases ready : r.status.ready with
  | true =>
      obtain ⟨notPend, notDelay, -, -, -⟩ := ok.flags.ready ready
      have notPendTime := ok.flags.notPendTime notPend
      refine ok_suspended (ok.deQueue_nowhere notPend used) ?_ ?_ ?_ ?_ ?_ ?_ notIdle ?_ ?_
      · rw [Record.Timed, Record.suspend, Record.setStatus_deadline, Record.deQueue_deadline]
        intro timed
        have waits := (ok.timed.mp timed).2
        simp [notDelay, notPendTime] at waits
      · rw [Record.suspend_status]
        exact used
      · rw [Record.suspend_status]
      · rw [Record.suspend_status]
        exact notPend
      · rw [Record.suspend_status]
        exact notPendTime
      · rw [Record.suspend_status]
        exact notDelay
      · rw [Record.suspend_status]
        exact fun _ => rfl
      · rw [Record.suspend, Record.setStatus_tcb]
        exact ⟨(Record.deQueue_priority r).symm ▸ inside.1, inside.2⟩
  | false =>
      rw [Record.suspend, ← Record.deQueue_ready, if_neg (Bool.eq_false_iff.mp ready)]
      refine ⟨?_, ok.ready, ok.pend, ok.free, ok.heads, ok.timed, ok.inside⟩
      refine ⟨?_, ok.flags.pendTime, ok.flags.pend, ?_, ?_, ?_⟩
      · exact fun isReady => absurd (ready.symm.trans isReady) Bool.false_ne_true
      · exact fun unused => absurd (used.symm.trans unused) Bool.false_ne_true
      · exact fun _ => Or.inr (Or.inr (Or.inr (Or.inr rfl)))
      · exact fun isIdle => absurd isIdle notIdle

theorem osCheckTaskIDValid_ok (valid : osCheckTaskIDValid c taskID = losOk) :
    taskID ≠ c.idleTaskID ∧ taskID ≠ c.swtmrTaskID ∧ taskID < c.taskMaxNum := by
  rw [osCheckTaskIDValid] at valid
  split at valid
  case isTrue => cases valid
  case isFalse notIdle =>
    split at valid
    case isTrue => cases valid
    case isFalse notSwtmr =>
      split at valid
      case isTrue => cases valid
      case isFalse isTask => exact ⟨notIdle, notSwtmr, Nat.not_le.mp isTask⟩

/-- A task with the flag of the running one has the processor. -/
theorem Consistent.isRunTask {current : Option Nat} (consistent : Consistent c v current)
    (isTask : taskID < c.taskMaxNum) :
    (v.record taskID).status.running = decide (taskID = v.runTask) := by
  rw [Bool.eq_iff_iff, decide_eq_true_eq]
  exact consistent.running taskID (Nat.ne_of_lt isTask)

/-- A call that ends with another record of the task, which fits. -/
theorem Consistent.performs {current : Option Nat} (consistent : Consistent c v current)
    {s' : Sched} {change : Record → Record} (here : At v taskID s' (change (v.record taskID)))
    (running : (change (v.record taskID)).status.running = (v.record taskID).status.running)
    (ok : Ok c taskID (change (v.record taskID)) (current = some taskID)) {schedule : Bool}
    {result : Option Outcome} (ran : result = some ⟨s', losOk, schedule⟩) :
    Performs c v current taskID change schedule result := by
  obtain ⟨s'', v', same, good, acts⟩ := consistent.keeps ⟨s', rfl, here⟩ running ok
  obtain rfl := Option.some.inj same
  exact ⟨s', v', ran, good, acts.congr rfl⟩

/-- **`LOS_TaskSuspend`** -/
theorem Good.suspend {current : Option Nat} (good : Good c s v current) (taskID : Nat) :
    Refused s (losTaskSuspend c s taskID) ∨
      ((v.record taskID).status.unused = false ∧ (v.record taskID).status.suspend = false ∧
        taskID ≠ c.idleTaskID ∧ (taskID = v.runTask → v.taskLock = 0) ∧
        Performs c v current taskID (Record.suspend c taskID) (taskID = v.runTask)
          (losTaskSuspend c s taskID)) := by
  have start : At v taskID s (v.record taskID) := Layout.At.start good.shows taskID
  have ok := good.consistent.ok taskID
  simp only [losTaskSuspend, at_tcb start]
  by_cases valid : osCheckTaskIDValid c taskID = losOk
  case neg =>
    rw [if_pos valid]
    exact Or.inl ⟨_, valid, rfl⟩
  obtain ⟨notIdle, -, isTask⟩ := osCheckTaskIDValid_ok valid
  rw [if_neg (not_not_intro valid)]
  split
  case isTrue => exact Or.inl ⟨_, by decide, rfl⟩
  case isFalse used =>
    split
    case isTrue => exact Or.inl ⟨_, by decide, rfl⟩
    case isFalse free =>
      split
      case isTrue => exact Or.inl ⟨_, by decide, rfl⟩
      case isFalse unlocked =>
        have used' := Bool.eq_false_iff.mpr used
        obtain ⟨s₁, left, here₁⟩ := Layout.Gives.ite (p := (v.record taskID).status.ready)
          (fun _ => gives_osSchedTaskDeQueue (c := c) start ok.queued) fun _ => start.pure
        rw [Record.deQueue_ready] at here₁
        rw [good.consistent.isRunTask isTask, at_taskLock start] at unlocked
        refine Or.inr ⟨used', Bool.eq_false_iff.mpr free, notIdle, fun isRun => ?_, ?_⟩
        · simpa [isRun] using unlocked
        · refine good.consistent.performs
            (at_setStatus here₁ ({ · with suspend := true })) ?_ (ok.suspend used' notIdle) ?_
          · rw [Record.suspend_status]
          · rw [left]
            simp [at_runTask here₁]

theorem Ok.resume (ok : Ok c taskID r current) (suspended : r.status.suspend = true)
    (notCurrent : ¬ current) : Ok c taskID (r.resume c taskID) current := by
  have blocked : r.status.Blocked := Or.inr (Or.inr suspended)
  have notReady := ok.flags.notReady blocked
  have used := ok.flags.used blocked
  have inside := ok.inside used
  simp only [Record.resume]
  split
  case isTrue free =>
    simp only [Bool.not_eq_true', Bool.or_eq_false_iff] at free
    have untimed : ¬ r.Timed := by
      rw [ok.timed]
      simp [free.1, ok.flags.notPendTime free.2]
    rw [eq_false notCurrent]
    exact ok_enQueue (ok.nowhere_used notReady free.2 used) untimed used inside.1 inside.2
  case isFalse waits =>
    simp only [Bool.not_eq_true', Bool.not_eq_false, Bool.or_eq_true] at waits
    refine ⟨?_, ok.ready, ok.pend, ok.free, ok.heads, ok.timed, ok.inside⟩
    refine ⟨?_, ok.flags.pendTime, ok.flags.pend, ?_, ?_, ?_⟩
    · exact fun isReady => absurd (notReady.symm.trans isReady) Bool.false_ne_true
    · exact fun unused => absurd (used.symm.trans unused) Bool.false_ne_true
    · exact fun _ => Or.inr (Or.inr (waits.elim (fun delay => Or.inr (Or.inl delay)) Or.inl))
    · exact fun isIdle => absurd isIdle (ok.flags.notIdle blocked)

/-- **`LOS_TaskResume`**, of a task that has not got the processor. -/
theorem Good.resume {current : Option Nat} (good : Good c s v current)
    (notCurrent : current ≠ some taskID) :
    Refused s (losTaskResume c s taskID) ∨
      ((v.record taskID).status.suspend = true ∧
        Performs c v current taskID (Record.resume c taskID)
          (!((v.record taskID).status.delay || (v.record taskID).status.pend) && v.taskScheduled)
          (losTaskResume c s taskID)) := by
  have start : At v taskID s (v.record taskID) := Layout.At.start good.shows taskID
  have ok := good.consistent.ok taskID
  simp only [losTaskResume, at_tcb start]
  split
  case isTrue => exact Or.inl ⟨_, by decide, rfl⟩
  case isFalse isTask =>
    split
    case isTrue => exact Or.inl ⟨_, by decide, rfl⟩
    case isFalse used =>
      split
      case isTrue => exact Or.inl ⟨_, by decide, rfl⟩
      case isFalse suspended =>
        have suspended' : (v.record taskID).status.suspend = true := by simpa using suspended
        have blocked : (v.record taskID).status.Blocked := Or.inr (Or.inr suspended')
        have used' := ok.flags.used blocked
        have notReady := ok.flags.notReady blocked
        refine Or.inr ⟨suspended', ?_⟩
        have resumed := at_setStatus start ({ · with suspend := false })
        have fits := ok.resume suspended' notCurrent
        simp only [at_tcb resumed]
        simp only [Record.setStatus_tcb, Bool.or_false]
        cases free : !((v.record taskID).status.delay || (v.record taskID).status.pend) with
        | true =>
            have free' := free
            simp only [Bool.not_eq_true', Bool.or_eq_false_iff] at free'
            obtain ⟨s₁, queued, here₁⟩ := gives_osSchedTaskEnQueue (c := c) resumed notReady
              (ok.inside used').1 (ok.nowhere_used notReady free'.2 used')
            have same : (v.record taskID).resume c taskID = _ := if_pos free
            refine good.consistent.performs (same ▸ here₁) ?_ fits ?_
            · rw [same, Record.enQueue_status]
              rfl
            · rw [if_pos rfl, queued, Bool.true_and, ← at_taskScheduled here₁]
              rfl
        | false =>
            have same : (v.record taskID).resume c taskID = _ :=
              if_neg (Bool.eq_false_iff.mp free)
            refine good.consistent.performs (same ▸ resumed) ?_ fits ?_
            · rw [same]
              rfl
            · rw [if_neg Bool.false_ne_true]
              rfl

/-! ## `LOS_TaskPriSet` -/

/-- **`LOS_TaskPriSet`** -/
theorem Good.priSet {current : Option Nat} (good : Good c s v current) (taskID : Nat)
    (taskPrio : UInt16) :
    Refused s (losTaskPriSet c s taskID taskPrio) ∨
      ((v.record taskID).status.unused = false ∧ taskID ≠ c.idleTaskID ∧
        Performs c v current taskID (Record.modify c taskID taskPrio.toNat)
          ((v.record taskID).status.ready || (v.record taskID).status.running)
          (losTaskPriSet c s taskID taskPrio)) := by
  have start : At v taskID s (v.record taskID) := Layout.At.start good.shows taskID
  have ok := good.consistent.ok taskID
  simp only [losTaskPriSet, at_tcb start]
  split
  case isTrue => exact Or.inl ⟨_, by decide, rfl⟩
  case isFalse low =>
    split
    case isTrue => exact Or.inl ⟨_, by decide, rfl⟩
    case isFalse notIdle =>
      split
      case isTrue => exact Or.inl ⟨_, by decide, rfl⟩
      case isFalse notSwtmr =>
        split
        case isTrue => exact Or.inl ⟨_, by decide, rfl⟩
        case isFalse isTask =>
          split
          case isTrue => exact Or.inl ⟨_, by decide, rfl⟩
          case isFalse used =>
            have used' := Bool.eq_false_iff.mpr used
            have inside : taskPrio.toNat < osPriorityQueueNum := by
              have := UInt16.not_lt.mp low
              exact Nat.lt_succ_of_le (UInt16.le_iff_toNat_le.mp this)
            obtain ⟨s₁, modified, here₁⟩ :=
              gives_osSchedModifyTaskSchedParam (c := c) start ok inside
            refine Or.inr ⟨used', notIdle, ?_⟩
            refine good.consistent.performs here₁ ?_ (ok.modify inside) ?_
            · rw [Record.modify]
              split
              · rw [Record.enQueue_status]
                show ((v.record taskID).deQueue c taskID).status.running = _
                rw [Record.deQueue_status]
              · rfl
            · rw [modified]
              rfl

/-! ## `LOS_TaskYield` and `LOS_TaskDelay` -/

/-- **`LOS_TaskYield`** -/
theorem Good.yield {current : Option Nat} (good : Good c s v current) :
    Performs c v current v.runTask (Record.setTcb ({ · with timeSlice := 0 })) true
      (some (losTaskYield s)) := by
  have start : At v v.runTask s (v.record v.runTask) := Layout.At.start good.shows v.runTask
  refine good.consistent.performs (at_setTask start ({ · with timeSlice := 0 })) rfl
    ((good.consistent.ok v.runTask).setTcb rfl rfl) ?_
  rw [losTaskYield, osSchedYield, at_runTask start]

/-- **The rest of `LOS_TaskDelay`** -/
theorem Good.delay (good : Good c s v (some v.runTask))
    (notPend : (v.record v.runTask).status.pend = false)
    (used : (v.record v.runTask).status.unused = false) (notIdle : v.runTask ≠ c.idleTaskID)
    {tick : UInt32} (notZero : tick ≠ 0) :
    Performs c v (some v.runTask) v.runTask (Record.delay tick) true
      (some (losTaskDelay s tick)) := by
  have start : At v v.runTask s (v.record v.runTask) := Layout.At.start good.shows v.runTask
  have ok := good.consistent.ok v.runTask
  rw [losTaskDelay, if_neg notZero]
  rw [eq_true (rfl : some v.runTask = some v.runTask)] at ok
  have delayed : At v v.runTask (osSchedDelay s tick) ((v.record v.runTask).delay tick) := by
    rw [osSchedDelay, at_runTask start]
    exact at_setTask start _
  refine good.consistent.performs delayed rfl ?_ rfl
  rw [eq_true (rfl : some v.runTask = some v.runTask)]
  exact ok.delay notPend used notIdle tick

/-! ## `LOS_TaskDelete` -/

/-- A task that does not exist, in the list of the free or of the finished ones. -/
theorem ok_unused {h : Node} (isFree : h = .freeTask ∨ h = .taskRecyle)
    (nowhere : ∀ k, ¬ r.stands k) (untimed : ¬ r.Timed) (unused : r.status.unused = true)
    (flags : FlagsOk r.status (taskID = c.idleTaskID) current) (isTask : taskID < c.taskMaxNum) :
    Ok c taskID (r.link h) current := by
  obtain ⟨notPend, notDelay, -⟩ := flags.unused unused
  have notReady : r.status.ready = false := Bool.eq_false_iff.mpr fun ready =>
    Bool.false_ne_true ((flags.ready ready).2.2.2.1.symm.trans unused)
  have stands : ∀ k, (r.link h).stands k ↔ k = h := fun k => by
    rw [Record.link_stands]
    exact or_iff_right (nowhere k)
  constructor
  case flags => exact flags
  case ready =>
    intro priority
    rw [stands, Record.link_status, notReady]
    refine iff_of_false ?_ fun all => Bool.false_ne_true all.1
    rcases isFree with rfl | rfl <;> exact Node.noConfusion
  case pend =>
    rw [Record.link_status, notPend]
    refine iff_of_false ?_ Bool.false_ne_true
    rintro ⟨k, waits, here⟩
    obtain rfl := (stands k).mp here
    rcases isFree with rfl | rfl <;> exact waits
  case free => exact fun _ => ⟨unused, isTask⟩
  case heads =>
    intro k here
    obtain rfl := (stands k).mp here
    rcases isFree with rfl | rfl <;> trivial
  case timed =>
    rw [Record.link_status, notDelay, flags.notPendTime notPend]
    exact iff_of_false untimed (by simp)
  case inside => exact fun used => absurd (used.symm.trans unused) Bool.false_ne_true

theorem flagsOk_unused {isIdle : Prop} : FlagsOk osTaskStatusUnused isIdle current := by
  constructor <;> simp [osTaskStatusUnused]

/-- A task stops to exist. -/
theorem gives_clear (here : At v taskID s r) (ok : Ok c taskID r current) :
    ∃ s₁, osSchedTaskExit c s taskID = some s₁ ∧
      At v taskID ((s₁.setTask taskID ({ · with eventMask := 0 })).setStatus taskID
        fun _ => osTaskStatusUnused) (r.clear c taskID) ∧
      (s₁.setTask taskID ({ · with eventMask := 0 })).task taskID =
        { (r.exit c taskID).tcb with eventMask := 0 } := by
  obtain ⟨s₁, left, here₁⟩ := gives_osSchedTaskExit (c := c) here ok
  have here₂ := at_setTask here₁ ({ · with eventMask := 0 })
  exact ⟨s₁, left, at_setStatus here₂ _, at_tcb here₂⟩

/-- The task that stands in for a deleted one. -/
theorem Ok.standIn {current' : Prop} (ok : Ok c c.taskMaxNum r current) :
    Ok c c.taskMaxNum (r.setStatus fun _ => { osTaskStatusUnused with running := true })
      current' := by
  have unused : r.status.unused = true := by
    by_contra used
    exact Nat.lt_irrefl _ (ok.inside (Bool.eq_false_iff.mpr used)).2
  obtain ⟨notPend, notDelay, notSuspend⟩ := ok.flags.unused unused
  have notReady : r.status.ready = false := by
    by_contra ready
    have used := (ok.flags.ready (by simpa using ready)).2.2.2.1
    exact Bool.false_ne_true (used.symm.trans unused)
  have nowhere := ok.nowhere notReady notPend fun _ => Nat.le_refl _
  have untimed : ¬ r.Timed := by
    rw [ok.timed]
    simp [notDelay, ok.flags.notPendTime notPend]
  refine ok_nowhere nowhere ?_ rfl rfl ?_ ?_
  · constructor <;> simp [osTaskStatusUnused]
  · exact iff_of_false untimed (by simp [osTaskStatusUnused])
  · simp [osTaskStatusUnused]

/-- **`LOS_TaskDelete`**, of a task that has not got the processor. -/
theorem Good.delete {current : Option Nat} (good : Good c s v current)
    (notRunning : taskID ≠ v.runTask) :
    Refused s (losTaskDelete c s taskID) ∨
      ((v.record taskID).status.unused = false ∧ taskID ≠ c.idleTaskID ∧
        Performs c v current taskID (fun r => (r.clear c taskID).link .freeTask) false
          (losTaskDelete c s taskID)) := by
  have start : At v taskID s (v.record taskID) := Layout.At.start good.shows taskID
  have ok := good.consistent.ok taskID
  simp only [losTaskDelete, at_tcb start]
  by_cases valid : osCheckTaskIDValid c taskID = losOk
  case neg =>
    rw [if_pos valid]
    exact Or.inl ⟨_, valid, rfl⟩
  obtain ⟨notIdle, -, isTask⟩ := osCheckTaskIDValid_ok valid
  have running : (v.record taskID).status.running = false := by
    rw [good.consistent.isRunTask isTask]
    exact decide_eq_false notRunning
  rw [if_neg (not_not_intro valid), running, Bool.false_and, if_neg Bool.false_ne_true]
  split
  case isTrue => exact Or.inl ⟨_, by decide, rfl⟩
  case isFalse used =>
    have used' := Bool.eq_false_iff.mpr used
    obtain ⟨s₁, left, here₁, tcb⟩ := gives_clear start ok
    have nowhere : ∀ k, ¬ ((v.record taskID).clear c taskID).stands k := ok.exit_nowhere used'
    obtain ⟨s₂, added, here₂⟩ := gives_listAdd (h := .freeTask) here₁ trivial
      (fun _ => Node.noConfusion) nowhere
    refine Or.inr ⟨used', notIdle, good.consistent.performs here₂ running.symm ?_ ?_⟩
    · exact ok_unused (Or.inl rfl) nowhere ok.exit_untimed rfl flagsOk_unused isTask
    · have still : ((v.record taskID).exit c taskID).status.running = false := by
        rw [ok.exit_status]
        exact running
      simp only [left, Option.bind_eq_bind, Option.bind_some, tcb]
      rw [if_neg (Bool.eq_false_iff.mp still), added]
      rfl

/-- The running task is deleted, and another one stands in for it. -/
structure Deleted (c : KernelConfig) (v v' : View) (taskID : Nat) : Prop where
  here : v'.record taskID = ((v.record taskID).clear c taskID).link .taskRecyle
  standIn : v'.record c.taskMaxNum = (v.record c.taskMaxNum).setStatus fun _ =>
    { osTaskStatusUnused with running := true }
  others : ∀ other, other ≠ taskID → other ≠ c.taskMaxNum → v'.record other = v.record other
  globals : v'.globals = ⟨c.taskMaxNum, 0, v.taskScheduled, v.switchPending⟩

/-- The task that stands in has the processor. -/
def View.standIn (c : KernelConfig) (v : View) : View :=
  View.setStatus { v with runTask := c.taskMaxNum } c.taskMaxNum fun _ =>
    { osTaskStatusUnused with running := true }

theorem View.standIn_acts (c : KernelConfig) (v : View) :
    Acts { v with runTask := c.taskMaxNum } (v.standIn c) c.taskMaxNum
      (Record.setStatus fun _ => { osTaskStatusUnused with running := true }) :=
  View.setStatus_acts _ c.taskMaxNum _

theorem View.standIn_record (v : View) :
    (v.standIn c).record c.taskMaxNum = (v.record c.taskMaxNum).setStatus fun _ =>
      { osTaskStatusUnused with running := true } := by
  rw [acts_here (v.standIn_acts c)]
  rfl

theorem View.standIn_others (v : View) (different : taskID ≠ c.taskMaxNum) :
    (v.standIn c).record taskID = v.record taskID := by
  rw [acts_others (v.standIn_acts c) different]
  rfl

/-- The deleted task is in the list of the finished ones, and the other one stands in. -/
theorem View.standIn_deleted {v₂ : View} (different : taskID ≠ c.taskMaxNum)
    (acts : Acts { v with taskLock := 0 } v₂ taskID
      fun _ => ((v.record taskID).clear c taskID).link .taskRecyle) :
    Deleted c v (v₂.standIn c) taskID where
  here := (v₂.standIn_others different).trans (acts_here acts)
  standIn := by
    rw [View.standIn_record, acts_others acts different.symm]
    rfl
  others := fun _ here isDummy => (v₂.standIn_others isDummy).trans (acts_others acts here)
  globals := by
    have before : v₂.globals = ⟨v.runTask, 0, v.taskScheduled, v.switchPending⟩ :=
      congrArg Frame.globals acts.frame
    rw [acts_globals (v₂.standIn_acts c)]
    show (⟨_, v₂.globals.taskLock, v₂.globals.taskScheduled, v₂.globals.switchPending⟩ :
      Globals) = _
    rw [before]

/-- Without the deleted task the records fit. -/
theorem Consistent.deleted {v' : View} (consistent : Consistent c v (some v.runTask))
    (used : (v.record v.runTask).status.unused = false)
    (deleted : Deleted c v v' v.runTask) : Consistent c v' (some c.taskMaxNum) := by
  have ok := consistent.ok v.runTask
  have isTask := (ok.inside used).2
  constructor
  · intro t
    by_cases isDummy : t = c.taskMaxNum
    · subst isDummy
      rw [deleted.standIn]
      exact (consistent.ok c.taskMaxNum).standIn
    · by_cases here : t = v.runTask
      · subst here
        rw [deleted.here]
        exact ok_unused (Or.inr rfl) (ok.exit_nowhere used) ok.exit_untimed rfl flagsOk_unused
          isTask
      · rw [deleted.others t here isDummy, eq_false fun same => isDummy (Option.some.inj same).symm]
        have ok' := consistent.ok t
        rwa [eq_false fun same => here (Option.some.inj same).symm] at ok'
  · intro t notDummy
    rw [show v'.runTask = c.taskMaxNum from congrArg Globals.runTask deleted.globals]
    refine iff_of_false ?_ notDummy
    show ¬ (v'.record t).status.running = true
    by_cases here : t = v.runTask
    · subst here
      rw [deleted.here]
      exact Bool.false_ne_true
    · rw [deleted.others t here notDummy]
      exact fun running => here ((consistent.running t notDummy).mp running)

/-- **`LOS_TaskDelete`**, of the running task. -/
theorem Good.deleteRunning (good : Good c s v (some v.runTask)) :
    Refused s (losTaskDelete c s v.runTask) ∨
      ((v.record v.runTask).status.unused = false ∧ v.runTask ≠ c.idleTaskID ∧
        ∃ s' v', losTaskDelete c s v.runTask = some ⟨s', losOk, true⟩ ∧
          Good c s' v' (some c.taskMaxNum) ∧ Deleted c v v' v.runTask) := by
  have start : At v v.runTask s (v.record v.runTask) := Layout.At.start good.shows v.runTask
  have ok := good.consistent.ok v.runTask
  simp only [losTaskDelete, at_tcb start]
  by_cases valid : osCheckTaskIDValid c v.runTask = losOk
  case neg =>
    rw [if_pos valid]
    exact Or.inl ⟨_, valid, rfl⟩
  obtain ⟨notIdle, -, isTask⟩ := osCheckTaskIDValid_ok valid
  have running : (v.record v.runTask).status.running = true := by
    rw [good.consistent.isRunTask isTask]
    exact decide_eq_true rfl
  rw [if_neg (not_not_intro valid), running, Bool.true_and]
  split
  case isTrue => exact Or.inl ⟨_, by decide, rfl⟩
  case isFalse used =>
    have used' := Bool.eq_false_iff.mpr used
    refine Or.inr ⟨used', notIdle, ?_⟩
    obtain ⟨s₀, same, shows₀⟩ : ∃ s₀, (if decide (s.taskLock ≠ 0) = true then
        { s with taskLock := 0 } else s) = s₀ ∧ Shows s₀ { v with taskLock := 0 } := by
      refine ⟨_, rfl, ?_⟩
      split
      case isTrue => exact { good.shows with taskLock := rfl }
      case isFalse zero => exact { good.shows with taskLock := by simpa using zero }
    have start₀ : At { v with taskLock := 0 } v.runTask s₀ (v.record v.runTask) :=
      Layout.At.start shows₀ v.runTask
    obtain ⟨s₁, left, here₁, tcb⟩ := gives_clear start₀ ok
    obtain ⟨s₂, added, v₂, shows₂, acts⟩ := gives_listTailInsert (h := .taskRecyle) here₁ trivial
      (fun _ => Node.noConfusion) (ok.exit_nowhere used')
    have shows₂' : Shows s₂ v₂ := shows₂
    have acts' : Acts { v with taskLock := 0 } v₂ v.runTask fun _ => _ := acts
    have notDummy : v.runTask ≠ c.taskMaxNum := Nat.ne_of_lt isTask
    have deleted : Deleted c v (v₂.standIn c) v.runTask := View.standIn_deleted notDummy acts'
    have still : ((v.record v.runTask).exit c v.runTask).status.running = true := by
      rw [ok.exit_status]
      exact running
    have tcb₂ : s₂.task v.runTask = ((v.record v.runTask).clear c v.runTask).tcb :=
      (congrFun shows₂'.task v.runTask).trans (congrArg Record.tcb (acts_here acts'))
    refine ⟨Sched.setStatus { s₂ with runTask := c.taskMaxNum } c.taskMaxNum fun _ =>
      { osTaskStatusUnused with running := true }, v₂.standIn c, ?_, ⟨?_,
        good.consistent.deleted used' deleted⟩, deleted⟩
    · simp only [same, left, Option.bind_eq_bind, Option.bind_some, tcb]
      rw [if_pos still]
      simp only [osRunningTaskDelete, added, Option.bind_eq_bind, Option.bind_some]
      rw [tcb₂]
      rfl
    · have moved : Shows { s₂ with runTask := c.taskMaxNum } { v₂ with runTask := c.taskMaxNum } :=
        { shows₂' with runTask := rfl }
      exact moved.setStatus c.taskMaxNum _

/-! ## `LOS_TaskCreate` -/

/-- The finished tasks are free, and nothing else has changed. -/
structure Recycled (v v' : View) : Prop where
  finished : ∀ taskID, (v.record taskID).stands .taskRecyle →
    v'.record taskID = (v.record taskID).unlink.link .freeTask
  others : ∀ taskID, ¬ (v.record taskID).stands .taskRecyle → v'.record taskID = v.record taskID
  globals : v'.globals = v.globals

/-- A task that does not exist waits for no time. -/
theorem Ok.unused_untimed (ok : Ok c taskID r current) (unused : r.status.unused = true) :
    ¬ r.Timed := by
  obtain ⟨notPend, notDelay, -⟩ := ok.flags.unused unused
  rw [ok.timed]
  simp [notDelay, ok.flags.notPendTime notPend]

theorem Ok.unused_notReady (ok : Ok c taskID r current) (unused : r.status.unused = true) :
    r.status.ready = false :=
  Bool.eq_false_iff.mpr fun ready =>
    Bool.false_ne_true ((ok.flags.ready ready).2.2.2.1.symm.trans unused)

/-- A task that does not exist, in no list. -/
theorem Ok.taken (ok : Ok c taskID r current) (unused : r.status.unused = true) :
    Ok c taskID r.unlink current := by
  obtain ⟨notPend, notDelay, -⟩ := ok.flags.unused unused
  refine ok_nowhere (fun _ => id) ok.flags (ok.unused_notReady unused) notPend ?_ ok.inside
  refine iff_of_false (ok.unused_untimed unused) fun both => ?_
  exact Bool.false_ne_true (notDelay.symm.trans both.2)

/-- The same task, free again. -/
theorem Ok.freed (ok : Ok c taskID r current) (unused : r.status.unused = true)
    (isTask : taskID < c.taskMaxNum) : Ok c taskID (r.unlink.link .freeTask) current :=
  ok_unused (Or.inl rfl) (fun _ => id) (ok.unused_untimed unused) unused ok.flags isTask

/-- One turn of the loop of `OsRecyleFinishedTask`. -/
theorem Good.recycleOne {current : Option Nat} (good : Good c s v current) {rest : List Nat}
    (finished : v.queue .taskRecyle = taskID :: rest) :
    ∃ s₁ s₂ v₂, s.listDelete taskID = some s₁ ∧ s₁.listAdd .freeTask taskID = some s₂ ∧
      Good c s₂ v₂ current ∧ v₂.queue .taskRecyle = rest ∧ ¬ (v₂.record taskID).stands .taskRecyle ∧
      Acts v v₂ taskID fun _ => (v.record taskID).unlink.link .freeTask := by
  have inList : taskID ∈ v.queue .taskRecyle := finished ▸ List.mem_cons_self
  have start : At v taskID s (v.record taskID) := Layout.At.start good.shows taskID
  obtain ⟨s₁, deleted, here⟩ := gives_listDelete (h := .taskRecyle) start
    (fun _ => Node.noConfusion) inList
  have ok := good.consistent.ok taskID
  obtain ⟨unused, isTask⟩ := ok.free (Or.inr inList)
  obtain ⟨s₂, v₂, added, good₂, acts⟩ := good.consistent.keeps
    (gives_listAdd (h := .freeTask) here trivial (fun _ => Node.noConfusion) fun _ => id) rfl
    (ok.freed unused isTask)
  have gone : ¬ (v₂.record taskID).stands .taskRecyle := by
    rw [acts_here acts]
    exact fun stands => Node.noConfusion (stands.resolve_left id)
  refine ⟨s₁, s₂, v₂, deleted, added, good₂, ?_, gone, acts⟩
  rw [acts_leaves acts (good.shows.nodup _) (finished.trans (List.nil_append _).symm) gone,
    List.nil_append]

/-- The loop of `OsRecyleFinishedTask`. -/
theorem Good.recycleLoop {current : Option Nat} (good : Good c s v current) {fuel : Nat}
    (enough : (v.queue .taskRecyle).length < fuel) :
    ∃ s' v', recycleTasks fuel s = some s' ∧ Good c s' v' current ∧ Recycled v v' := by
  induction fuel generalizing s v with
  | zero => exact absurd enough (Nat.not_lt_zero _)
  | succ fuel ih =>
      have empty := good.shows.queues.empty (h := .taskRecyle) trivial
      rw [recycleTasks]
      cases finished : v.queue .taskRecyle with
      | nil =>
          rw [if_pos (empty.mpr finished)]
          refine ⟨s, v, rfl, good, fun t stands => ?_, fun _ _ => rfl, rfl⟩
          have member : t ∈ v.queue .taskRecyle := stands
          rw [finished] at member
          exact absurd member List.not_mem_nil
      | cons taskID rest =>
          have some : ¬ losListEmpty s.links .taskRecyle = true := fun isEmpty => by
            rw [empty.mp isEmpty] at finished
            cases finished
          have first := good.shows.queues.first (h := .taskRecyle) trivial finished
          obtain ⟨s₁, s₂, v₂, deleted, added, good₂, less, gone, acts⟩ := good.recycleOne finished
          have shorter : (v₂.queue .taskRecyle).length < fuel := by
            rw [finished, List.length_cons] at enough
            rw [less]
            exact Nat.lt_of_succ_lt_succ enough
          obtain ⟨s', v', ran, good', recycled⟩ := ih good₂ shorter
          refine ⟨s', v', ?_, good', fun t stands => ?_, fun t not => ?_,
            recycled.globals.trans (acts_globals acts)⟩
          · rw [if_neg some, first]
            simp only [Option.bind_eq_bind, Option.bind_some, Node.tcb, deleted, added]
            exact ran
          · by_cases here : t = taskID
            · subst here
              exact (recycled.others t gone).trans (acts_here acts)
            · have same := acts_others acts here
              rw [recycled.finished t (same ▸ stands), same]
          · have other : t ≠ taskID := fun here =>
              not (here ▸ (finished ▸ List.mem_cons_self : taskID ∈ v.queue .taskRecyle))
            have same := acts_others acts other
            rw [recycled.others t (same ▸ not), same]

/-- **`OsRecyleFinishedTask`** -/
theorem Good.recycleFinished {current : Option Nat} (good : Good c s v current) :
    ∃ s' v', osRecyleFinishedTask c s = some s' ∧ Good c s' v' current ∧ Recycled v v' := by
  have inRange : v.queue .taskRecyle ⊆ List.range c.taskMaxNum := fun t member =>
    List.mem_range.mpr ((good.consistent.ok t).free (Or.inr member)).2
  have least := (List.Nodup.subperm (good.shows.nodup .taskRecyle) inRange).length_le
  rw [List.length_range] at least
  exact good.recycleLoop (Nat.lt_succ_of_le least)

theorem osTaskInitParamCheck_ok {osIdleTask : Nat} {taskInitParam : TskInitParam}
    (valid : osTaskInitParamCheck osIdleTask taskInitParam = losOk) :
    taskInitParam.usTaskPrio.toNat < osPriorityQueueNum := by
  by_contra high
  have above : 31 < taskInitParam.usTaskPrio := by
    rw [UInt16.lt_iff_toNat_lt]
    exact Nat.not_lt.mp high
  simp only [osTaskInitParamCheck, above, if_true] at valid
  split at valid
  · cases valid
  · split at valid <;> cases valid

/-- **`LOS_TaskCreateOnly`** recycles the finished tasks. -/
theorem Good.createCheck {current : Option Nat} (good : Good c s v current)
    (taskInitParam : TskInitParam) :
    Refused s (losTaskCreateCheck c s taskInitParam) ∨
      (taskInitParam.usTaskPrio.toNat < osPriorityQueueNum ∧
        ∃ s' v', losTaskCreateCheck c s taskInitParam = some ⟨s', losOk, false⟩ ∧
          Good c s' v' current ∧ Recycled v v') := by
  rw [losTaskCreateCheck]
  by_cases valid : osTaskInitParamCheck c.osIdleTask taskInitParam = losOk
  case neg =>
    rw [if_pos valid]
    exact Or.inl ⟨_, valid, rfl⟩
  obtain ⟨s', v', ran, good', recycled⟩ := good.recycleFinished
  rw [if_neg (not_not_intro valid), ran]
  exact Or.inr ⟨osTaskInitParamCheck_ok valid, s', v', rfl, good', recycled⟩

/-- **`LOS_TaskCreateOnly`** takes a task, if one is free. -/
theorem Good.createTake {current : Option Nat} (good : Good c s v current) :
    (∃ ret, ret ≠ losOk ∧ losTaskCreateTake s = some (s.refuse ret, none)) ∨
      ∃ taskID s' v', taskID ∈ v.queue .freeTask ∧
        losTaskCreateTake s = some (⟨s', losOk, false⟩, some taskID) ∧
        Good c s' v' current ∧ Acts v v' taskID Record.unlink := by
  have empty := good.shows.queues.empty (h := .freeTask) trivial
  rw [losTaskCreateTake]
  cases free : v.queue .freeTask with
  | nil =>
      rw [if_pos (empty.mpr free)]
      exact Or.inl ⟨_, by decide, rfl⟩
  | cons taskID rest =>
      have some : ¬ losListEmpty s.links .freeTask = true := fun isEmpty => by
        rw [empty.mp isEmpty] at free
        cases free
      have first := good.shows.queues.first (h := .freeTask) trivial free
      have inList : taskID ∈ v.queue .freeTask := free ▸ List.mem_cons_self
      have start : At v taskID s (v.record taskID) := Layout.At.start good.shows taskID
      have ok := good.consistent.ok taskID
      obtain ⟨s', v', deleted, good', acts⟩ := good.consistent.keeps
        (gives_listDelete (h := .freeTask) start (fun _ => Node.noConfusion) inList) rfl
        (ok.taken (ok.free (Or.inl inList)).1)
      refine Or.inr ⟨taskID, s', v', List.mem_cons_self, ?_, good', acts.congr rfl⟩
      rw [if_neg some, first]
      simp only [Option.bind_eq_bind, Option.bind_some, Node.tcb, deleted]
      rfl

/-- A task that waits for no time is told so once more. -/
theorem at_osNewTaskInit (here : At v taskID s r) (untimed : ¬ r.Timed)
    (taskInitParam : TskInitParam) :
    At v taskID (osNewTaskInit s taskID taskInitParam) (r.newTask taskInitParam) := by
  have same : Function.update s.sortLink.responseTime (some taskID) osSortLinkInvalidTime =
      s.sortLink.responseTime := by
    obtain ⟨v', shows, changes⟩ := here
    have record : v'.record taskID = r := changes.here
    refine Function.update_eq_self_iff.mpr ?_
    rw [(show Shows s v' from shows).timed.times]
    show osSortLinkInvalidTime = (v'.record taskID).deadline
    rw [record]
    exact (not_not.mp untimed).symm
  have set := at_setTask here fun tcb => { tcb with
    taskStatus := osTaskStatusSuspend, priority := taskInitParam.usTaskPrio.toNat
    timeSlice := 0, waitTimes := 0, eventMask := 0 }
  rw [osNewTaskInit, same]
  exact set

/-- A new task is suspended. -/
theorem Ok.newTask (nowhere : ∀ h, ¬ r.stands h) (untimed : ¬ r.Timed)
    {taskInitParam : TskInitParam} (inside : taskInitParam.usTaskPrio.toNat < osPriorityQueueNum)
    (isTask : taskID < c.taskMaxNum) (notIdle : taskID ≠ c.idleTaskID) :
    Ok c taskID (r.newTask taskInitParam) current :=
  ok_suspended nowhere untimed rfl rfl rfl rfl rfl notIdle (fun _ => rfl) ⟨inside, isTask⟩

/-- **The rest of `LOS_TaskCreateOnly`**, of a task that was taken: it is suspended, or free
again. -/
theorem Good.createOnly {current : Option Nat} (good : Good c s v current)
    (nowhere : ∀ h, ¬ (v.record taskID).stands h) (unused : (v.record taskID).status.unused = true)
    (notRunning : (v.record taskID).status.running = false) (isTask : taskID < c.taskMaxNum)
    (notIdle : taskID ≠ c.idleTaskID) {taskInitParam : TskInitParam}
    (inside : taskInitParam.usTaskPrio.toNat < osPriorityQueueNum) (memory : Bool) :
    ∃ ret s' v',
      losTaskCreateOnly s taskID taskInitParam memory = some ⟨s', ret, false⟩ ∧
      (ret = losOk ↔ memory = true) ∧ Good c s' v' current ∧
      Acts v v' taskID fun r => if memory then r.newTask taskInitParam else r.link .freeTask := by
  have start : At v taskID s (v.record taskID) := Layout.At.start good.shows taskID
  have ok := good.consistent.ok taskID
  have untimed := ok.unused_untimed unused
  cases memory with
  | false =>
      obtain ⟨s', v', added, good', acts⟩ := good.consistent.keeps
        (gives_listAdd (h := .freeTask) start trivial (fun _ => Node.noConfusion) nowhere) rfl
        (ok_unused (Or.inl rfl) nowhere untimed unused ok.flags isTask)
      refine ⟨losErrnoTskNoMemory, s', v', ?_, by decide, good', acts.congr rfl⟩
      rw [losTaskCreateOnly, Bool.not_false, if_pos rfl, added]
      rfl
  | true =>
      obtain ⟨s', v', made, good', acts⟩ := good.consistent.keeps
        ⟨_, rfl, at_osNewTaskInit start untimed taskInitParam⟩ notRunning.symm
        (Ok.newTask nowhere untimed inside isTask notIdle)
      cases made
      exact ⟨losOk, _, v', rfl, iff_of_true rfl rfl, good', acts.congr rfl⟩

/-- **The rest of `LOS_TaskCreate`**, of a task that nobody else has looked at. -/
theorem Good.create {current : Option Nat} (good : Good c s v current)
    (nowhere : ∀ h, ¬ (v.record taskID).stands h) (untimed : ¬ (v.record taskID).Timed)
    (notReady : (v.record taskID).status.ready = false)
    (used : (v.record taskID).status.unused = false) (notCurrent : current ≠ some taskID) :
    Performs c v current taskID (Record.enQueue c taskID) v.taskScheduled
      (losTaskCreate c s taskID) := by
  have start : At v taskID s (v.record taskID) := Layout.At.start good.shows taskID
  obtain ⟨inside, isTask⟩ := (good.consistent.ok taskID).inside used
  obtain ⟨s', queued, here⟩ := gives_osSchedTaskEnQueue (c := c) start notReady inside nowhere
  refine good.consistent.performs here ?_ ?_ ?_
  · rw [Record.enQueue_status]
    rfl
  · rw [eq_false notCurrent]
    exact ok_enQueue nowhere untimed used inside isTask
  · rw [losTaskCreate, queued, ← at_taskScheduled here]
    rfl

end Calls

end EinkLiteOS.Kernel
