/-
# Kernel.System -- the kernel, step after step

The task that has the processor calls the kernel.  Where a call lets the interrupts on again and
has not come to its end, it is cut: what is left of it is the `Rest` of the task, and anything may
happen before the task goes on with it.  Interrupts write events and let the clock tick; the
software interrupt switches.  `Sound` and `Settled` are what holds between two steps.  A change of
a record that `Carries` lets a task read no event that it did not read.
-/
import EinkLiteOS.Kernel.Event

namespace EinkLiteOS.Kernel

open EinkLiteOS.Theory EinkLiteOS.Theory.RingList

set_option autoImplicit false

/-- What a task is created with. -/
structure NewTask where
  taskInitParam : TskInitParam
  /-- `LOS_MemAllocAlign` finds memory for its stack. -/
  memory : Bool
  /-- `LOS_TaskCreate`, not `LOS_TaskCreateOnly`. -/
  enQueue : Bool

/-- What is left of a call. -/
inductive Rest where
  /-- `LOS_Schedule` -/
  | schedule
  /-- `LOS_Schedule` in `LOS_EventRead` -/
  | readSchedule (event : Nat) (eventMask mode : BitVec 32)
  | eventRead (event : Nat) (eventMask mode : BitVec 32)
  | delay (tick : UInt32)
  | createTake (newTask : NewTask)
  | createOnly (newTask : NewTask) (taskID : Nat)
  | create (taskID : Nat)

/-- The scheduler, the bits of the events, the link of the software timers, what is left of the
calls of the tasks, and the time that was read last. -/
structure System where
  sched : Sched
  uwEventID : Nat → BitVec 32
  swtmrs : SortLink (Option Nat)
  rest : Nat → Option Rest
  currTime : UInt64

/-- What a task may call. -/
inductive TaskCall where
  | suspend (taskID : Nat)
  | resume (taskID : Nat)
  | priSet (taskID : Nat) (taskPrio : UInt16)
  | yield
  | delay (tick : UInt32)
  | lock
  | unlock
  | delete (taskID : Nat)
  | create (newTask : NewTask)
  | eventRead (event : Nat) (eventMask mode : BitVec 32) (timeOut : UInt32)
  | eventWrite (event : Nat) (events : BitVec 32)
  | eventClear (event : Nat) (eventMask : BitVec 32)
  | schedule

/-- What happens next: the running task calls the kernel or goes on with its call, an interrupt
works on an event or calls `LOS_Schedule`, the idle task recycles the finished ones, the clock
ticks, or the software interrupt comes. -/
inductive Action where
  | call (taskCall : TaskCall)
  | goOn
  | eventWrite (event : Nat) (events : BitVec 32)
  | eventClear (event : Nat) (eventMask : BitVec 32)
  | schedule
  | recycle
  | tick (scan : Option UInt64) (currTime : UInt64)
  | switch (currTime : UInt64)

/-! ## The steps -/

/-- The running task has come so far, and this is left of its call. -/
def System.left (sys : System) (sched : Sched) (rest : Option Rest) : System :=
  { sys with sched, rest := Function.update sys.rest sched.runTask rest }

/-- At most `LOS_Schedule` is left of the call. -/
def System.ends (sys : System) (outcome : Outcome) : System :=
  sys.left outcome.sched (if outcome.schedule then some .schedule else none)

/-- A new task begins at its entry, whatever was left of an earlier task of its number. -/
def System.begins (sys : System) (taskID : Nat) : System :=
  { sys with rest := Function.update sys.rest taskID none }

def System.setEvent (sys : System) (event : Nat) (uwEventID : BitVec 32) : System :=
  { sys with uwEventID := Function.update sys.uwEventID event uwEventID }

/-- A call, up to where the interrupts are on again. -/
def System.call (c : KernelConfig) (sys : System) : TaskCall → Option System
  | .suspend taskID => (losTaskSuspend c sys.sched taskID).map sys.ends
  | .resume taskID => (losTaskResume c sys.sched taskID).map sys.ends
  | .priSet taskID taskPrio => (losTaskPriSet c sys.sched taskID taskPrio).map sys.ends
  | .yield => some (sys.ends (losTaskYield sys.sched))
  | .delay tick =>
      some (sys.left sys.sched
        (if losTaskDelayCheck sys.sched false = losOk then some (.delay tick) else none))
  | .lock => some (sys.ends (losTaskLock sys.sched))
  | .unlock => some (sys.ends (losTaskUnlock sys.sched))
  | .delete taskID => (losTaskDelete c sys.sched taskID).map sys.ends
  | .create newTask => do
      let outcome ← losTaskCreateCheck c sys.sched newTask.taskInitParam
      return sys.left outcome.sched
        (if outcome.ret = losOk then some (.createTake newTask) else none)
  | .eventRead event eventMask mode timeOut => do
      let o ← losEventRead sys.sched (sys.uwEventID event) event false eventMask mode timeOut
      return (sys.setEvent event o.uwEventID).left o.outcome.sched
        (if o.outcome.schedule then some (.readSchedule event eventMask mode) else none)
  | .eventWrite event events => do
      let o ← losEventWrite c sys.sched (sys.uwEventID event) event events
      return (sys.setEvent event o.uwEventID).ends o.outcome
  | .eventClear event eventMask =>
      some (sys.setEvent event (losEventClear (sys.uwEventID event) eventMask))
  | .schedule => some (sys.left (losSchedule sys.sched) none)

/-- The next part of a call.  `OsNewTaskInit` works with interrupts on, but nobody else looks at
the task before it is created. -/
def System.goOn (c : KernelConfig) (sys : System) : Rest → Option System
  | .schedule => some (sys.left (losSchedule sys.sched) none)
  | .readSchedule event eventMask mode =>
      some (sys.left (losSchedule sys.sched) (some (.eventRead event eventMask mode)))
  | .eventRead event eventMask mode =>
      let o := losEventReadRest sys.sched (sys.uwEventID event) sys.sched.runTask eventMask mode
      some ((sys.setEvent event o.uwEventID).ends o.outcome)
  | .delay tick => some (sys.ends (losTaskDelay sys.sched tick))
  | .createTake newTask => do
      let (outcome, taken) ← losTaskCreateTake sys.sched
      return sys.left outcome.sched (taken.map (.createOnly newTask))
  | .createOnly newTask taskID => do
      let outcome ←
        losTaskCreateOnly sys.sched taskID newTask.taskInitParam newTask.memory
      if outcome.ret = losOk then
        return (sys.begins taskID).left outcome.sched
          (if newTask.enQueue then some (.create taskID) else none)
      else return sys.left outcome.sched none
  | .create taskID => (losTaskCreate c sys.sched taskID).map sys.ends

/-- One step; that a null pointer is followed or an assertion fails is `none`. -/
def System.step (c : KernelConfig) (sys : System) : Action → Option System
  | .call taskCall => sys.call c taskCall
  | .goOn =>
      match sys.rest sys.sched.runTask with
      | none => some sys
      | some rest => sys.goOn c rest
  | .eventWrite event events => do
      let o ← losEventWrite c sys.sched (sys.uwEventID event) event events
      return { sys.setEvent event o.uwEventID with sched := o.outcome.sched }
  | .eventClear event eventMask =>
      some (sys.setEvent event (losEventClear (sys.uwEventID event) eventMask))
  | .schedule => some { sys with sched := losSchedule sys.sched }
  | .recycle => do
      let sched ← osRecyleFinishedTask c sys.sched
      return { sys with sched }
  | .tick scan currTime => do
      let (sched, swtmrs) ← losSchedTickHandler c sys.sched sys.swtmrs scan currTime
      return { sys with sched, swtmrs, currTime }
  | .switch currTime => do
      let sched ← osSchedTaskSwitch c sys.sched currTime
      return { sys with sched, currTime }

/-- The steps, one after the other. -/
def System.run (c : KernelConfig) (sys : System) (actions : List Action) : Option System :=
  actions.foldlM (fun sys action => sys.step c action) sys

/-! ## What may happen -/

/-- The task that is created by the rest of a call. -/
def Rest.creates : Rest → Option Nat
  | .createOnly _ taskID | .create taskID => some taskID
  | _ => none

/-- A call has begun to create the task, and has not come to its end. -/
def Creates (rest : Nat → Option Rest) (taskID : Nat) : Prop :=
  ∃ owner r, rest owner = some r ∧ r.creates = some taskID

/-- The task that a call names. -/
def TaskCall.names : TaskCall → Option Nat
  | .suspend taskID | .resume taskID | .priSet taskID _ | .delete taskID => some taskID
  | _ => none

instance (c : KernelConfig) (currTime : UInt64) : Decidable (c.Clock currTime) :=
  inferInstanceAs (Decidable (_ < _))

/-- The clock has not gone back, and does not come to its end. -/
def System.Later (c : KernelConfig) (sys : System) (currTime : UInt64) : Prop :=
  sys.currTime ≤ currTime ∧ c.Clock currTime

/-- What may happen: the software interrupt comes when it is pending, and before the running task
does anything else; the idle task calls nothing; and no call names a task that is still being
created. -/
def System.May (c : KernelConfig) (sys : System) : Action → Prop
  | .call taskCall =>
      sys.sched.switchPending = false ∧ sys.sched.runTask ≠ c.idleTaskID ∧
        sys.rest sys.sched.runTask = none ∧
        ∀ taskID, taskCall.names = some taskID → ¬ Creates sys.rest taskID
  | .goOn => sys.sched.switchPending = false
  | .eventWrite .. | .eventClear .. | .schedule => True
  | .recycle => sys.sched.switchPending = false ∧ sys.sched.runTask = c.idleTaskID
  | .tick scan currTime =>
      sys.Later c currTime ∧ ∀ time, scan = some time → sys.currTime ≤ time ∧ time ≤ currTime
  | .switch currTime => sys.sched.switchPending = true ∧ sys.Later c currTime

/-- Each step may happen when its turn comes. -/
def System.MayAll (c : KernelConfig) : System → List Action → Prop
  | _, [] => True
  | sys, action :: rest =>
      sys.May c action ∧ ∀ sys', sys.step c action = some sys' → sys'.MayAll c rest

/-! ## The invariant -/

/-- The tasks and the events between two steps; no software timer runs. -/
structure Sound (c : KernelConfig) (sys : System) (v : View) : Prop where
  good : Good c sys.sched v (some v.runTask)
  scheduled : v.taskScheduled = true
  idle : (v.record c.idleTaskID).status.unused = false
  times : ∀ taskID, (v.record taskID).tcb.startTime ≤ sys.currTime
  readers : ∀ event, v.Readers event (sys.uwEventID event)
  noSwtmr : losListEmpty sys.swtmrs.links none = true

/-- A task that waits for nothing and is not held back. -/
structure Record.Acting (r : Record) : Prop where
  notPend : r.status.pend = false
  notDelay : r.status.delay = false
  notSuspend : r.status.suspend = false
  used : r.status.unused = false

/-- Nothing in the kernel leads to the task. -/
structure Record.Apart (r : Record) : Prop where
  nowhere : ∀ h, ¬ r.stands h
  untimed : ¬ r.Timed
  notReady : r.status.ready = false
  notRunning : r.status.running = false

/-- The task that a call creates is as the call has left it. -/
def Rest.Fits (c : KernelConfig) (v : View) : Rest → Prop
  | .createTake newTask => newTask.taskInitParam.usTaskPrio.toNat < osPriorityQueueNum
  | .createOnly newTask taskID =>
      newTask.taskInitParam.usTaskPrio.toNat < osPriorityQueueNum ∧ taskID < c.taskMaxNum ∧
        (v.record taskID).Apart ∧ (v.record taskID).status.unused = true
  | .create taskID => (v.record taskID).Apart ∧ (v.record taskID).status.unused = false
  | _ => True

/-- The tasks that are being created, each by one call. -/
structure Creations (c : KernelConfig) (rest : Nat → Option Rest) (v : View) : Prop where
  fits : ∀ owner r, rest owner = some r → r.Fits c v
  once : ∀ owner other r r' taskID, rest owner = some r → rest other = some r' →
    r.creates = some taskID → r'.creates = some taskID → owner = other

/-- `LOS_Schedule` is next. -/
def Rest.schedules : Rest → Bool
  | .schedule | .readSchedule .. => true
  | _ => false

/-- The task that has the processor goes on, or is about to lose it. -/
def View.Goes (v : View) (rest : Option Rest) : Prop :=
  (v.record v.runTask).Acting ∨ v.switchPending = true ∨
    (rest.any Rest.schedules = true ∧ v.taskLock = 0)

/-- What holds between two steps. -/
structure Settled (c : KernelConfig) (sys : System) (v : View) : Prop where
  sound : Sound c sys v
  creations : Creations c sys.rest v
  idleRest : sys.rest c.idleTaskID = none
  goes : v.Goes (sys.rest v.runTask)
  unlocked : v.switchPending = true → v.taskLock = 0
  delays : ∀ tick, sys.rest v.runTask = some (.delay tick) → v.taskLock = 0

/-- The record still fits the clock, and the task reads no event that it did not read. -/
structure Record.Carries (currTime : UInt64) (r r' : Record) : Prop where
  startTime : r.tcb.startTime ≤ currTime → r'.tcb.startTime ≤ currTime
  reads : ∀ event, r'.stands (.eventList event) →
    r.stands (.eventList event) ∧ r'.tcb.eventMask = r.tcb.eventMask ∧
      r'.tcb.eventMode = r.tcb.eventMode

namespace Record.Carries

variable {c : KernelConfig} {taskID : Nat} {currTime : UInt64} {r r' r'' : Record}

theorem refl (r : Record) : r.Carries currTime r := ⟨id, fun _ stands => ⟨stands, rfl, rfl⟩⟩

theorem trans (first : r.Carries currTime r') (second : r'.Carries currTime r'') :
    r.Carries currTime r'' where
  startTime early := second.startTime (first.startTime early)
  reads event stands := by
    obtain ⟨stood, mask, mode⟩ := second.reads event stands
    obtain ⟨before, mask', mode'⟩ := first.reads event stood
    exact ⟨before, mask.trans mask', mode.trans mode'⟩

/-- A task that stands nowhere reads no event. -/
theorem nowhere (startTime : r'.tcb.startTime = r.tcb.startTime)
    (nowhere : ∀ h, ¬ r'.stands h) : r.Carries currTime r' :=
  ⟨fun early => startTime ▸ early, fun _ stands => absurd stands (nowhere _)⟩

/-- Another control block, with the same times and the same bits. -/
theorem setTcb {tcb : LosTaskCB → LosTaskCB} (startTime : (tcb r.tcb).startTime = r.tcb.startTime)
    (eventMask : (tcb r.tcb).eventMask = r.tcb.eventMask)
    (eventMode : (tcb r.tcb).eventMode = r.tcb.eventMode) :
    r.Carries currTime (r.setTcb tcb) :=
  ⟨fun early => startTime ▸ early, fun _ stands => ⟨stands, eventMask, eventMode⟩⟩

theorem setStatus (r : Record) (status : TaskStatus → TaskStatus) :
    r.Carries currTime (r.setStatus status) := setTcb rfl rfl rfl

theorem time (r : Record) (responseTime : UInt64) : r.Carries currTime (r.time responseTime) :=
  ⟨id, fun _ stands => ⟨stands, rfl, rfl⟩⟩

theorem unlink (r : Record) : r.Carries currTime r.unlink := nowhere rfl fun _ => id

theorem link (r : Record) {h : Node} (notEvent : ∀ event, Node.eventList event ≠ h) :
    r.Carries currTime (r.link h) :=
  ⟨id, fun event stands => ⟨stands.resolve_right (notEvent event), rfl, rfl⟩⟩

theorem enQueue (r : Record) : r.Carries currTime (r.enQueue c taskID) := by
  have sliced : r.Carries currTime (r.setTcb (LosTaskCB.sliced c)) := by
    refine setTcb ?_ ?_ ?_ <;>
    · rw [LosTaskCB.sliced]
      split <;> rfl
  rw [Record.enQueue]
  refine Carries.trans ?_ (setStatus _ _)
  split
  · exact sliced.trans (link _ fun _ => Node.noConfusion)
  · exact refl r

theorem deQueue (r : Record) : r.Carries currTime (r.deQueue c taskID) := by
  rw [Record.deQueue]
  split
  · refine Carries.trans ?_ (setStatus _ _)
    split
    · exact unlink r
    · exact refl r
  · exact refl r

theorem modify (r : Record) (priority : Nat) :
    r.Carries currTime (r.modify c taskID priority) := by
  rw [Record.modify]
  split
  · exact ((deQueue r).trans (setTcb rfl rfl rfl)).trans (enQueue _)
  · exact setTcb rfl rfl rfl

theorem suspend (r : Record) : r.Carries currTime (r.suspend c taskID) :=
  (deQueue r).trans (setStatus _ _)

theorem resume (r : Record) : r.Carries currTime (r.resume c taskID) := by
  simp only [Record.resume]
  split
  · exact (setStatus r _).trans (enQueue _)
  · exact setStatus r _

theorem unpend (r : Record) : r.Carries currTime r.unpend := by
  simp only [Record.unpend]
  split
  · exact (((unlink r).trans (setStatus _ _)).trans (time _ _)).trans (setStatus _ _)
  · exact (unlink r).trans (setStatus _ _)

theorem wake (r : Record) : r.Carries currTime (r.wake c taskID) := by
  rw [Record.wake]
  split
  · exact (unpend r).trans (enQueue _)
  · exact unpend r

theorem expire (r : Record) : r.Carries currTime (r.expire c taskID) := by
  have timeOut : r.Carries currTime r.untime.timeOut := by
    rw [Record.timeOut]
    split
    · exact (((time r _).trans (setStatus _ _)).trans (setStatus _ _)).trans (unlink _)
    · exact (time r _).trans (setStatus _ _)
  rw [Record.expire]
  split
  · exact timeOut.trans (enQueue _)
  · exact timeOut

theorem scan (r : Record) (now : UInt64) : r.Carries currTime (r.scan c now taskID) := by
  rw [Record.scan]
  split
  · exact expire r
  · exact refl r

theorem slice (r : Record) : r.Carries currTime (r.slice c currTime taskID) :=
  ⟨fun _ => UInt64.le_refl currTime, fun _ stands => ⟨stands, rfl, rfl⟩⟩

theorem requeue (r : Record) : r.Carries currTime (r.requeue c taskID) := by
  simp only [Record.requeue]
  split
  · exact time r _
  · split
    · exact enQueue r
    · exact refl r

theorem run (r : Record) : r.Carries currTime (r.run c currTime taskID) := by
  refine Carries.trans ?_ (deQueue _)
  exact ⟨fun _ => UInt64.le_refl currTime, fun _ stands => ⟨stands, rfl, rfl⟩⟩

theorem exit (r : Record) : r.Carries currTime (r.exit c taskID) := by
  have unready : r.Carries currTime (r.unready c taskID) := by
    rw [Record.unready]
    split
    · exact deQueue r
    · split
      · exact (unlink r).trans (setStatus _ _)
      · exact refl r
  rw [Record.exit]
  split
  · exact (unready.trans (time _ _)).trans (setStatus _ _)
  · exact unready

end Record.Carries

end EinkLiteOS.Kernel
