/-
# Kernel.Sched -- the scheduler

`kernel/src/los_sched.c`: a queue of ready tasks for each priority, with a bit that says whether
it is empty, the link of the tasks that wait for a time, and the switch to the first task of the
first queue.  The functions here work on the pointers of the lists; that a null pointer is
followed or an assertion fails is `none`.  Of the switch the next timer interrupt is left out.
-/
import EinkLiteOS.Kernel.SortLink
import EinkLiteOS.Kernel.TaskLists
import EinkLiteOS.Theory.BitMap

namespace EinkLiteOS.Kernel

open EinkLiteOS.Theory.RingList

set_option autoImplicit false

/-- `taskStatus`, bit by bit. -/
structure TaskStatus where
  unused : Bool
  suspend : Bool
  ready : Bool
  pend : Bool
  running : Bool
  delay : Bool
  timeout : Bool
  pendTime : Bool
deriving DecidableEq

/-- `LosTaskCB`; its two list nodes are in the links. -/
structure LosTaskCB where
  taskStatus : TaskStatus
  priority : Nat
  timeSlice : Int32
  waitTimes : UInt32
  startTime : UInt64
  eventMask : BitVec 32
  eventMode : BitVec 32

/-- The tasks, their lists, the running task, and the software interrupt that switches. -/
structure Sched where
  task : Nat → LosTaskCB
  links : Links Node
  queueBitmap : BitVec 32
  sortLink : SortLink (Option Nat)
  runTask : Nat
  taskLock : UInt16
  taskScheduled : Bool
  switchPending : Bool

/-- What the configuration and the start of the kernel fix. -/
structure KernelConfig where
  /-- `g_taskMaxNum`; the task behind the last one stands in for a deleted one. -/
  taskMaxNum : Nat
  /-- `g_idleTaskID` -/
  idleTaskID : Nat
  /-- `g_swtmrTaskID` -/
  swtmrTaskID : Nat
  /-- `OS_CYCLE_PER_TICK` -/
  cyclePerTick : UInt64
  /-- `OS_SCHED_TIME_SLICES` -/
  schedTimeSlices : Int32
  /-- `OS_TIME_SLICE_MIN` -/
  timeSliceMin : Int32
  /-- `OS_IDLE_TASK_ENTRY` -/
  osIdleTask : Nat
  /-- `LOSCFG_BASE_CORE_SWTMR_LIMIT` -/
  swtmrLimit : Nat
  /-- `OsSwtmrTimeoutHandle`: it writes to the queue of the software timers, and may start the
  timer again. -/
  swtmrTimeoutHandle : Nat → Sched → SortLink (Option Nat) → Option (Sched × SortLink (Option Nat))

/-- Another control block for a task. -/
def Sched.setTask (s : Sched) (taskID : Nat) (tcb : LosTaskCB → LosTaskCB) : Sched :=
  { s with task := Function.update s.task taskID (tcb (s.task taskID)) }

/-- Another status for a task. -/
def Sched.setStatus (s : Sched) (taskID : Nat) (status : TaskStatus → TaskStatus) : Sched :=
  s.setTask taskID fun tcb => { tcb with taskStatus := status tcb.taskStatus }

/-- `LOS_ListDelete(&taskCB->pendList)` -/
def Sched.listDelete (s : Sched) (taskID : Nat) : Option Sched := do
  let links ← losListDelete s.links (.pendList taskID)
  return { s with links }

/-- `LOS_ListAdd(list, &taskCB->pendList)` -/
def Sched.listAdd (s : Sched) (list : Node) (taskID : Nat) : Option Sched := do
  let links ← losListAdd s.links list (.pendList taskID)
  return { s with links }

/-- `LOS_ListTailInsert(list, &taskCB->pendList)` -/
def Sched.listTailInsert (s : Sched) (list : Node) (taskID : Nat) : Option Sched := do
  let links ← losListTailInsert s.links list (.pendList taskID)
  return { s with links }

/-- `OsDeleteSortLink(&taskCB->sortList, OS_SORT_LINK_TASK)` -/
def Sched.deleteSortLink (s : Sched) (taskID : Nat) : Option Sched := do
  let sortLink ← osDeleteSortLink s.sortLink (some taskID)
  return { s with sortLink }

/-- `OsDeleteNodeSortLink(g_taskSortLinkList, &taskCB->sortList)` -/
def Sched.deleteNodeSortLink (s : Sched) (taskID : Nat) : Option Sched := do
  let sortLink ← osDeleteNodeSortLink s.sortLink (some taskID)
  return { s with sortLink }

/-- `OsAdd2SortLink(&taskCB->sortList, startTime, waitTimes, OS_SORT_LINK_TASK)` -/
def Sched.add2SortLink (c : KernelConfig) (s : Sched) (taskID : Nat) (startTime : UInt64)
    (waitTimes : UInt32) : Option Sched := do
  let sortLink ← osAdd2SortLink c.cyclePerTick s.sortLink (c.taskMaxNum + 1) none (some taskID)
    startTime waitTimes
  return { s with sortLink }

/-! ## The queues -/

/-- `OsTimeSliceUpdate`, of the running task. -/
def osTimeSliceUpdate (c : KernelConfig) (s : Sched) (currTime : UInt64) : Option Sched :=
  let taskCB := s.task s.runTask
  if currTime < taskCB.startTime then none
  else
    let incTime := (currTime - taskCB.startTime).toUInt32.toInt32
    some (s.setTask s.runTask fun tcb => { tcb with
      timeSlice := if s.runTask ≠ c.idleTaskID then tcb.timeSlice - incTime else tcb.timeSlice
      startTime := currTime })

/-- The bit of a queue is set, when it is empty. -/
def Sched.setQueueBit (s : Sched) (priority : Nat) : Sched :=
  if losListEmpty s.links (.priQueue priority) then
    { s with queueBitmap := s.queueBitmap ||| 0x80000000#32 >>> priority }
  else s

/-- `OsSchedPriQueueEnHead` -/
def osSchedPriQueueEnHead (s : Sched) (taskID : Nat) (priority : Nat) : Option Sched :=
  (s.setQueueBit priority).listAdd (.priQueue priority) taskID

/-- `OsSchedPriQueueEnTail` -/
def osSchedPriQueueEnTail (s : Sched) (taskID : Nat) (priority : Nat) : Option Sched :=
  (s.setQueueBit priority).listTailInsert (.priQueue priority) taskID

/-- `OsSchedPriQueueDelete` -/
def osSchedPriQueueDelete (s : Sched) (taskID : Nat) (priority : Nat) : Option Sched := do
  let s ← s.listDelete taskID
  if losListEmpty s.links (.priQueue priority) then
    return { s with queueBitmap := s.queueBitmap &&& ~~~(0x80000000#32 >>> priority) }
  else return s

/-- `OsSchedTaskEnQueue` -/
def osSchedTaskEnQueue (c : KernelConfig) (s : Sched) (taskID : Nat) : Option Sched := do
  let taskCB := s.task taskID
  if taskCB.taskStatus.ready then none
  let s ←
    (if taskID ≠ c.idleTaskID then
       if c.timeSliceMin < taskCB.timeSlice then
         osSchedPriQueueEnHead s taskID taskCB.priority
       else
         osSchedPriQueueEnTail (s.setTask taskID ({ · with timeSlice := c.schedTimeSlices }))
           taskID taskCB.priority
     else pure s)
  return s.setStatus taskID ({ · with
    pend := false, suspend := false, delay := false, pendTime := false, ready := true })

/-- `OsSchedTaskDeQueue` -/
def osSchedTaskDeQueue (c : KernelConfig) (s : Sched) (taskID : Nat) : Option Sched := do
  let taskCB := s.task taskID
  if taskCB.taskStatus.ready then
    let s ←
      (if taskID ≠ c.idleTaskID then osSchedPriQueueDelete s taskID taskCB.priority else pure s)
    return s.setStatus taskID ({ · with ready := false })
  else return s

/-! ## Waiting and waking -/

/-- `OsSchedWakePendTimeTask`; that it sets `needSchedule` is `wakesUp`. -/
def osSchedWakePendTimeTask (c : KernelConfig) (s : Sched) (taskID : Nat) : Option Sched := do
  let tempStatus := (s.task taskID).taskStatus
  if tempStatus.pend || tempStatus.delay then
    let s := s.setStatus taskID ({ · with pend := false, pendTime := false, delay := false })
    let s ←
      (if tempStatus.pend then
         (s.setStatus taskID ({ · with timeout := true })).listDelete taskID
       else pure s)
    if !tempStatus.suspend then osSchedTaskEnQueue c s taskID else return s
  else return s

def TaskStatus.wakesUp (status : TaskStatus) : Bool :=
  (status.pend || status.delay) && !status.suspend

/-- The loop of `OsSchedScanTimerList`, as far as the fuel lasts. -/
def scanTimers (c : KernelConfig) (currTime : UInt64) :
    Nat → Sched → Bool → Option (Sched × Bool)
  | 0, _, _ => none
  | fuel + 1, s, needSchedule => do
      let sortList ← s.sortLink.links.next none
      if s.sortLink.responseTime sortList ≤ currTime then
        let taskID ← sortList
        let s ← s.deleteNodeSortLink taskID
        let needSchedule := needSchedule || (s.task taskID).taskStatus.wakesUp
        let s ← osSchedWakePendTimeTask c s taskID
        if losListEmpty s.sortLink.links none then return (s, needSchedule)
        else scanTimers c currTime fuel s needSchedule
      else return (s, needSchedule)

/-- `OsSchedScanTimerList`, with `needSchedule`. -/
def osSchedScanTimerList (c : KernelConfig) (s : Sched) (currTime : UInt64) :
    Option (Sched × Bool) :=
  if losListEmpty s.sortLink.links none then some (s, false)
  else scanTimers c currTime (c.taskMaxNum + 1) s false

/-- `OsSchedTaskExit` -/
def osSchedTaskExit (c : KernelConfig) (s : Sched) (taskID : Nat) : Option Sched := do
  let status := (s.task taskID).taskStatus
  let s ←
    (if status.ready then osSchedTaskDeQueue c s taskID
     else if status.pend then do
       let s ← s.listDelete taskID
       return s.setStatus taskID ({ · with pend := false })
     else pure s)
  let status := (s.task taskID).taskStatus
  if status.delay || status.pendTime then
    let s ← s.deleteSortLink taskID
    return s.setStatus taskID ({ · with delay := false, pendTime := false })
  else return s

/-- `OsSchedYield` -/
def osSchedYield (s : Sched) : Sched := s.setTask s.runTask ({ · with timeSlice := 0 })

/-- `OsSchedDelay`, of the running task. -/
def osSchedDelay (s : Sched) (tick : UInt32) : Sched :=
  s.setTask s.runTask fun tcb => { tcb with
    taskStatus := { tcb.taskStatus with delay := true }, waitTimes := tick }

/-- `LOS_WAIT_FOREVER` -/
def losWaitForever : UInt32 := 0xFFFFFFFF

/-- `OsSchedTaskWait` -/
def osSchedTaskWait (s : Sched) (list : Node) (ticks : UInt32) : Option Sched := do
  let s := s.setStatus s.runTask ({ · with pend := true })
  let s ← s.listTailInsert list s.runTask
  if ticks ≠ losWaitForever then
    return s.setTask s.runTask fun tcb => { tcb with
      taskStatus := { tcb.taskStatus with pendTime := true }, waitTimes := ticks }
  else return s

/-- `OsSchedTaskWake` -/
def osSchedTaskWake (c : KernelConfig) (s : Sched) (taskID : Nat) : Option Sched := do
  let s ← s.listDelete taskID
  let s := s.setStatus taskID ({ · with pend := false })
  let s ←
    (if (s.task taskID).taskStatus.pendTime then do
       let s ← s.deleteSortLink taskID
       return s.setStatus taskID ({ · with pendTime := false })
     else pure s)
  let status := (s.task taskID).taskStatus
  if !status.suspend && !status.running then osSchedTaskEnQueue c s taskID else return s

/-- `OsSchedModifyTaskSchedParam` -/
def osSchedModifyTaskSchedParam (c : KernelConfig) (s : Sched) (taskID : Nat) (priority : Nat) :
    Option Sched := do
  if (s.task taskID).taskStatus.ready then
    let s ← osSchedTaskDeQueue c s taskID
    osSchedTaskEnQueue c (s.setTask taskID ({ · with priority })) taskID
  else return s.setTask taskID ({ · with priority })

/-! ## The switch -/

/-- `OsGetTopTask` -/
def osGetTopTask (c : KernelConfig) (s : Sched) : Option Nat :=
  if s.queueBitmap ≠ 0 then do
    let first ← s.links.next (.priQueue s.queueBitmap.clz.toNat)
    first.tcb
  else some c.idleTaskID

/-- Where `OsSchedTaskSwitch` puts the running task. -/
def requeueRunTask (c : KernelConfig) (s : Sched) : Option Sched :=
  let runTask := s.task s.runTask
  let status := runTask.taskStatus
  if status.pendTime || status.delay then
    s.add2SortLink c s.runTask runTask.startTime runTask.waitTimes
  else if !(status.pend || status.suspend || status.unused) then osSchedTaskEnQueue c s s.runTask
  else some s

/-- The flags of the old and the new task in `OsSchedTaskSwitch`. -/
def redirectRunTask (s : Sched) (newTask : Nat) : Sched :=
  if s.runTask ≠ newTask then
    let startTime := (s.task s.runTask).startTime
    (s.setStatus s.runTask ({ · with running := false })).setTask newTask fun tcb => { tcb with
      taskStatus := { tcb.taskStatus with running := true }, startTime }
  else s

/-- `OsSchedTaskSwitch`, and `HalTaskSwitch` around it. -/
def osSchedTaskSwitch (c : KernelConfig) (s : Sched) (currTime : UInt64) : Option Sched := do
  let s ← osTimeSliceUpdate c s currTime
  let s ← requeueRunTask c s
  let newTask ← osGetTopTask c s
  let s ← osSchedTaskDeQueue c (redirectRunTask s newTask) newTask
  return { s with runTask := newTask, switchPending := false }

/-- `OsSchedStart`, and the switch to the first task that follows it. -/
def osSchedStart (c : KernelConfig) (s : Sched) (currTime : UInt64) : Option Sched := do
  let newTask ← osGetTopTask c s
  let s ← osSchedTaskDeQueue c (s.setTask newTask fun tcb => { tcb with
    taskStatus := { tcb.taskStatus with running := true }, startTime := currTime }) newTask
  return { s with runTask := newTask, taskScheduled := true }

/-- `LOS_Schedule`; `HalTaskSchedule` sets the software interrupt pending. -/
def losSchedule (s : Sched) : Sched :=
  if s.taskScheduled && s.taskLock = 0 then { s with switchPending := true } else s

/-- The loop of `OsSwtmrScan`, as far as the fuel lasts. -/
def scanSwtmrs (c : KernelConfig) (currTime : UInt64) :
    Nat → Sched → SortLink (Option Nat) → Bool → Option (Sched × SortLink (Option Nat) × Bool)
  | 0, _, _, _ => none
  | fuel + 1, s, swtmrs, needSchedule => do
      let sortList ← swtmrs.links.next none
      if swtmrs.responseTime sortList ≤ currTime then
        let swtmr ← sortList
        let swtmrs ← osDeleteNodeSortLink swtmrs (some swtmr)
        let (s, swtmrs) ← c.swtmrTimeoutHandle swtmr s swtmrs
        if losListEmpty swtmrs.links none then return (s, swtmrs, true)
        else scanSwtmrs c currTime fuel s swtmrs true
      else return (s, swtmrs, needSchedule)

/-- `OsSwtmrScan`, which is `g_swtmrScan` since `OsSwtmrInit`; with `needSchedule`. -/
def osSwtmrScan (c : KernelConfig) (s : Sched) (swtmrs : SortLink (Option Nat))
    (currTime : UInt64) : Option (Sched × SortLink (Option Nat) × Bool) :=
  if losListEmpty swtmrs.links none then some (s, swtmrs, false)
  else scanSwtmrs c currTime (c.swtmrLimit + 1) s swtmrs false

/-- What `LOS_SchedTickHandler` looks for; `scan` is the time, if the one that has come is not the
end of a slice. -/
def scanAll (c : KernelConfig) (s : Sched) (swtmrs : SortLink (Option Nat)) :
    Option UInt64 → Option (Sched × SortLink (Option Nat) × Bool)
  | none => some (s, swtmrs, false)
  | some scan => do
      let (s, swtmrs, needSched) ← osSwtmrScan c s swtmrs scan
      let (s, needSchedule) ← osSchedScanTimerList c s scan
      return (s, swtmrs, needSched || needSchedule)

/-- `LOS_SchedTickHandler`, of the tasks and the software timers. -/
def losSchedTickHandler (c : KernelConfig) (s : Sched) (swtmrs : SortLink (Option Nat))
    (scan : Option UInt64) (currTime : UInt64) : Option (Sched × SortLink (Option Nat)) := do
  if !s.taskScheduled then none
  let (s, swtmrs, needSched) ← scanAll c s swtmrs scan
  if needSched && s.taskLock = 0 then return ({ s with switchPending := true }, swtmrs)
  else
    let s ← osTimeSliceUpdate c s currTime
    return (s, swtmrs)

end EinkLiteOS.Kernel
