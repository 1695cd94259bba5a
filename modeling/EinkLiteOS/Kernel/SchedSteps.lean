/-
# Kernel.SchedSteps -- waiting and waking

The functions of `Kernel.Sched` that change the state of one task: that each of them runs where
it may be called, what it makes of the record of the task, and that the record fits again.
-/
import EinkLiteOS.Kernel.SchedInvariant

namespace EinkLiteOS.Kernel

open EinkLiteOS.Theory

set_option autoImplicit false

namespace Record

/-- The task waits in no list any more. -/
def unpend (r : Record) : Record :=
  let r' := r.unlink.setStatus ({ · with pend := false })
  if r.status.pendTime then r'.untime.setStatus ({ · with pendTime := false }) else r'

/-- `OsSchedTaskWake` -/
def wake (c : KernelConfig) (taskID : Nat) (r : Record) : Record :=
  if !r.status.suspend && !r.status.running then r.unpend.enQueue c taskID else r.unpend

/-- The time of the task has come. -/
def timeOut (r : Record) : Record :=
  let r' := r.setStatus ({ · with pend := false, pendTime := false, delay := false })
  if r.status.pend then (r'.setStatus ({ · with timeout := true })).unlink else r'

/-- `OsSchedWakePendTimeTask`, of a task that waits for a time. -/
def expire (c : KernelConfig) (taskID : Nat) (r : Record) : Record :=
  if !r.status.suspend then r.untime.timeOut.enQueue c taskID else r.untime.timeOut

/-- The task is no longer ready, and waits in no list. -/
def unready (c : KernelConfig) (taskID : Nat) (r : Record) : Record :=
  if r.status.ready then r.deQueue c taskID
  else if r.status.pend then r.unlink.setStatus ({ · with pend := false })
  else r

/-- `OsSchedTaskExit` -/
def exit (c : KernelConfig) (taskID : Nat) (r : Record) : Record :=
  if r.status.delay || r.status.pendTime then
    (r.unready c taskID).untime.setStatus ({ · with delay := false, pendTime := false })
  else r.unready c taskID

/-- `OsSchedModifyTaskSchedParam` -/
def modify (c : KernelConfig) (taskID priority : Nat) (r : Record) : Record :=
  if r.status.ready then
    ((r.deQueue c taskID).setTcb ({ · with priority })).enQueue c taskID
  else r.setTcb ({ · with priority })

/-- `OsSchedDelay` -/
def delay (tick : UInt32) (r : Record) : Record :=
  r.setTcb fun tcb => { tcb with
    taskStatus := { tcb.taskStatus with delay := true }, waitTimes := tick }

/-- `OsSchedTaskWait` -/
def wait (list : Node) (ticks : UInt32) (r : Record) : Record :=
  let r' := (r.setStatus ({ · with pend := true })).link list
  if ticks ≠ losWaitForever then
    r'.setTcb fun tcb => { tcb with
      taskStatus := { tcb.taskStatus with pendTime := true }, waitTimes := ticks }
  else r'

end Record

section Steps

variable {c : KernelConfig} {s : Sched} {v : View} {taskID : Nat} {r : Record} {current : Prop}

/-! ## `OsSchedTaskWake` -/

@[simp] theorem Record.unpend_status (r : Record) :
    r.unpend.status = { r.status with pend := false, pendTime := false } := by
  rw [Record.unpend]
  cases pendTime : r.status.pendTime
  · simp [pendTime]
  · simp

@[simp] theorem Record.unpend_priority (r : Record) :
    r.unpend.tcb.priority = r.tcb.priority := by
  rw [Record.unpend]
  cases r.status.pendTime <;> rfl

@[simp] theorem Record.unpend_stands (r : Record) (h : Node) : r.unpend.stands h = False := by
  rw [Record.unpend]
  cases r.status.pendTime <;> rfl

theorem gives_osSchedTaskWake (here : At v taskID s r) (ok : Ok c taskID r current)
    (pend : r.status.pend = true) :
    Gives v taskID (osSchedTaskWake c s taskID) (r.wake c taskID) := by
  obtain ⟨h, waits, stands⟩ := ok.pend.mpr pend
  have blocked : r.status.Blocked := Or.inl pend
  refine (gives_listDelete here waits.notQueue stands).bind fun s₁ here₁ => ?_
  have here₂ := at_setStatus here₁ ({ · with pend := false })
  dsimp only
  rw [at_tcb here₂]
  have unpends := Layout.Gives.ite (p := r.status.pendTime)
    (fun _ => (gives_deleteSortLink here₂).bind fun s₃ here₃ =>
      (at_setStatus here₃ ({ · with pendTime := false })).pure) fun _ => here₂.pure
  refine unpends.bind fun s₄ (here₄ : At v taskID s₄ r.unpend) => ?_
  have status : (s₄.task taskID).taskStatus = _ := (congrArg _ (at_tcb here₄)).trans r.unpend_status
  rw [status]
  refine Layout.Gives.ite (fun _ => gives_osSchedTaskEnQueue here₄ ?_ ?_ ?_) fun _ => here₄.pure
  · rw [Record.unpend_status]
    exact ok.flags.notReady blocked
  · rw [Record.unpend_priority]
    exact (ok.inside (ok.flags.used blocked)).1
  · exact fun k => by simp

theorem Record.wake_running (r : Record) :
    (r.wake c taskID).status.running = r.status.running := by
  rw [Record.wake]
  split
  · rw [Record.enQueue_status]
    show r.unpend.status.running = _
    rw [Record.unpend_status]
  · rw [Record.unpend_status]

/-- A task that is woken waits in no list. -/
theorem Record.wake_stands (r : Record) {h : Node} (waits : h.Waits) :
    ¬ (r.wake c taskID).stands h := by
  rw [Record.wake]
  split
  · rw [Record.enQueue_stands, Record.unpend_stands, false_or]
    exact fun both => waits.notQueue _ both.2
  · rw [Record.unpend_stands]
    exact id

/-- A task that waits gets ready, unless it is suspended or has the processor. -/
theorem Ok.wake (ok : Ok c taskID r current) (pend : r.status.pend = true)
    (running : r.status.running = true ↔ current) : Ok c taskID (r.wake c taskID) current := by
  have blocked : r.status.Blocked := Or.inl pend
  have used := ok.flags.used blocked
  have inside := ok.inside used
  have untimed : ¬ r.unpend.Timed := by
    rw [Record.Timed, Record.unpend]
    by_cases pendTime : r.status.pendTime = true
    · simp [pendTime]
    · have none : ¬ r.Timed := by
        rw [ok.timed]
        simp [ok.flags.pend pend, pendTime]
      rw [if_neg pendTime]
      exact none
  rw [Record.wake]
  split
  case isTrue free =>
    have notCurrent : ¬ current := by
      rw [← running]
      simp at free
      simp [free.2]
    rw [eq_false notCurrent]
    refine ok_enQueue (fun h => by simp) untimed ?_ ?_ inside.2
    · rw [Record.unpend_status]
      exact used
    · rw [Record.unpend_priority]
      exact inside.1
  case isFalse stays =>
    have suspended : ¬ current → r.status.suspend = true := by
      intro notCurrent
      rw [← running] at notCurrent
      simpa [notCurrent] using stays
    refine ok_suspended (fun h => by simp) untimed ?_ ?_ ?_ ?_ ?_ (ok.flags.notIdle blocked) ?_ ?_
    · rw [Record.unpend_status]
      exact used
    · rw [Record.unpend_status]
      exact ok.flags.notReady blocked
    · rw [Record.unpend_status]
    · rw [Record.unpend_status]
    · rw [Record.unpend_status]
      exact ok.flags.pend pend
    · rw [Record.unpend_status]
      exact suspended
    · rw [Record.unpend_priority]
      exact inside

/-! ## `OsSchedWakePendTimeTask` -/

@[simp] theorem Record.timeOut_status (r : Record) :
    r.timeOut.status = { r.status with
      pend := false, pendTime := false, delay := false
      timeout := r.status.timeout || r.status.pend } := by
  rw [Record.timeOut]
  cases pend : r.status.pend <;> simp

@[simp] theorem Record.timeOut_priority (r : Record) :
    r.timeOut.tcb.priority = r.tcb.priority := by
  rw [Record.timeOut]
  cases r.status.pend <;> rfl

@[simp] theorem Record.timeOut_deadline (r : Record) : r.timeOut.deadline = r.deadline := by
  rw [Record.timeOut]
  cases r.status.pend <;> rfl

theorem Record.timeOut_stands (r : Record) (h : Node) :
    r.timeOut.stands h ↔ r.stands h ∧ r.status.pend = false := by
  rw [Record.timeOut]
  cases r.status.pend <;> simp

/-- A task with a deadline waits, and is not the one with the processor. -/
theorem Ok.waits (ok : Ok c taskID r current) (timed : r.Timed) :
    ¬ current ∧ (r.status.pend || r.status.delay) = true ∧ r.status.Blocked := by
  obtain ⟨notCurrent, waits⟩ := ok.timed.mp timed
  refine ⟨notCurrent, ?_⟩
  rcases waits with delay | pendTime
  · exact ⟨by simp [delay], Or.inr (Or.inl delay)⟩
  · have pend := ok.flags.pendTime pendTime
    exact ⟨by simp [pend], Or.inl pend⟩

/-- When its time has come, a task stands nowhere. -/
theorem Ok.timeOut_nowhere (ok : Ok c taskID r current) (timed : r.Timed) (h : Node) :
    ¬ r.untime.timeOut.stands h := by
  have blocked := (ok.waits timed).2.2
  rw [Record.timeOut_stands]
  rintro ⟨stands, notPend⟩
  exact ok.nowhere_used (ok.flags.notReady blocked) notPend (ok.flags.used blocked) h stands

theorem gives_osSchedWakePendTimeTask (here : At v taskID s r.untime)
    (ok : Ok c taskID r current) (timed : r.Timed) :
    Gives v taskID (osSchedWakePendTimeTask c s taskID) (r.expire c taskID) := by
  obtain ⟨-, waits, blocked⟩ := ok.waits timed
  have here₁ := at_setStatus here ({ · with pend := false, pendTime := false, delay := false })
  have timesOut := Layout.Gives.ite (p := r.status.pend) (fun pend => by
      obtain ⟨h, isWait, stands⟩ := ok.pend.mpr pend
      exact gives_listDelete (at_setStatus here₁ ({ · with timeout := true })) isWait.notQueue
        stands) fun _ => here₁.pure
  have tcb : s.task taskID = r.tcb := (at_tcb here).trans rfl
  rw [osSchedWakePendTimeTask, tcb]
  dsimp only
  rw [if_pos waits]
  refine timesOut.bind fun s₂ (here₂ : At v taskID s₂ r.untime.timeOut) => ?_
  refine Layout.Gives.ite (fun _ => gives_osSchedTaskEnQueue here₂ ?_ ?_
    (ok.timeOut_nowhere timed)) fun _ => here₂.pure
  · rw [Record.timeOut_status]
    exact ok.flags.notReady blocked
  · rw [Record.timeOut_priority]
    exact (ok.inside (ok.flags.used blocked)).1

/-- A task whose time has come gets ready, unless it is suspended. -/
theorem Ok.expire (ok : Ok c taskID r current) (timed : r.Timed) :
    Ok c taskID (r.expire c taskID) current := by
  obtain ⟨notCurrent, -, blocked⟩ := ok.waits timed
  have used := ok.flags.used blocked
  have inside := ok.inside used
  have nowhere := ok.timeOut_nowhere timed
  have untimed : ¬ r.untime.timeOut.Timed := by
    rw [Record.Timed, Record.timeOut_deadline]
    exact not_not_intro rfl
  rw [Record.expire]
  split
  case isTrue =>
    rw [eq_false notCurrent]
    refine ok_enQueue nowhere untimed ?_ ?_ inside.2
    · rw [Record.timeOut_status]
      exact used
    · rw [Record.timeOut_priority]
      exact inside.1
  case isFalse suspended =>
    refine ok_suspended nowhere untimed ?_ ?_ ?_ ?_ ?_ (ok.flags.notIdle blocked) ?_ ?_ <;>
      try rw [Record.timeOut_status]
    · exact used
    · exact ok.flags.notReady blocked
    · exact fun _ => by simpa using suspended
    · rw [Record.timeOut_priority]
      exact inside

/-! ## `OsSchedTaskWait` and `OsSchedDelay` -/

theorem gives_osSchedTaskWait {list : Node} (here : At v v.runTask s r)
    (ok : Ok c v.runTask r True) (notPend : r.status.pend = false)
    (used : r.status.unused = false) (waits : list.Waits) (ticks : UInt32) :
    Gives v v.runTask (osSchedTaskWait s list ticks) (r.wait list ticks) := by
  rw [osSchedTaskWait, at_runTask here]
  have here₁ := at_setStatus here ({ · with pend := true })
  dsimp only
  rw [at_runTask here₁]
  refine (gives_listTailInsert here₁ waits.isHead waits.notQueue fun k =>
    ok.nowhere_used (ok.flags.here trivial) notPend used k).bind fun s₂ here₂ => ?_
  rw [at_runTask here₂]
  by_cases forever : ticks = losWaitForever
  · rw [if_neg (not_not_intro forever), Record.wait, if_neg (not_not_intro forever)]
    exact here₂.pure
  · rw [if_pos forever, Record.wait, if_pos forever]
    exact (at_setTask here₂ _).pure

theorem Ok.wait {list : Node} (ok : Ok c taskID r True) (notPend : r.status.pend = false)
    (notDelay : r.status.delay = false) (used : r.status.unused = false)
    (notIdle : taskID ≠ c.idleTaskID) (waits : list.Waits) (ticks : UInt32) :
    Ok c taskID (r.wait list ticks) True := by
  have notReady := ok.flags.here trivial
  have nowhere := ok.nowhere_used notReady notPend used
  have stands : ∀ h, (r.wait list ticks).stands h ↔ h = list := by
    intro h
    rw [Record.wait]
    split <;> simp [nowhere]
  have status : ∃ pendTime, (r.wait list ticks).status =
      { r.status with pend := true, pendTime } := by
    rw [Record.wait]
    split
    · exact ⟨true, rfl⟩
    · exact ⟨r.status.pendTime, rfl⟩
  have priority : (r.wait list ticks).tcb.priority = r.tcb.priority := by
    rw [Record.wait]
    split <;> rfl
  have deadline : (r.wait list ticks).deadline = r.deadline := by
    rw [Record.wait]
    split <;> rfl
  obtain ⟨pendTime, status⟩ := status
  constructor
  · rw [status]
    constructor <;> simp [notReady, notDelay, used, notIdle]
  · intro priority
    rw [status, stands]
    exact iff_of_false (fun same => waits.notQueue priority same.symm) (by simp [notReady])
  · rw [status]
    exact iff_of_true ⟨list, waits, (stands list).mpr rfl⟩ rfl
  · rw [stands, stands]
    rintro (rfl | rfl) <;> exact waits.elim
  · intro h here
    rw [(stands h).mp here]
    exact waits.isHead
  · rw [Record.Timed, deadline]
    refine iff_of_false (fun timed => (ok.timed.mp timed).1 trivial) fun both => both.1 trivial
  · rw [status, priority]
    exact ok.inside

theorem Ok.delay (ok : Ok c taskID r True) (notPend : r.status.pend = false)
    (used : r.status.unused = false) (notIdle : taskID ≠ c.idleTaskID) (tick : UInt32) :
    Ok c taskID (r.delay tick) True := by
  have notReady := ok.flags.here trivial
  have notPendTime := ok.flags.notPendTime notPend
  refine ⟨?_, ok.ready, ok.pend, ok.free, ok.heads, ?_, ok.inside⟩
  · rw [Record.delay]
    constructor <;> simp [notReady, notPend, notPendTime, used, notIdle]
  · exact iff_of_false (fun timed => (ok.timed.mp timed).1 trivial) fun both => both.1 trivial

/-! ## `OsSchedTaskExit` -/

@[simp] theorem Record.deQueue_status (r : Record) :
    (r.deQueue c taskID).status = { r.status with ready := false } := by
  rw [Record.deQueue]
  cases ready : r.status.ready
  · rw [if_neg Bool.false_ne_true, ← ready]
  · rw [if_pos rfl]
    split <;> rfl

@[simp] theorem Record.deQueue_priority (r : Record) :
    (r.deQueue c taskID).tcb.priority = r.tcb.priority := by
  rw [Record.deQueue]
  split
  · split <;> rfl
  · rfl

@[simp] theorem Record.deQueue_deadline (r : Record) :
    (r.deQueue c taskID).deadline = r.deadline := by
  rw [Record.deQueue]
  split
  · split <;> rfl
  · rfl

/-- A task that leaves its queue stands nowhere. -/
theorem Ok.deQueue_nowhere (ok : Ok c taskID r current) (notPend : r.status.pend = false)
    (used : r.status.unused = false) (h : Node) : ¬ (r.deQueue c taskID).stands h := by
  rw [Record.deQueue]
  split
  case isTrue ready =>
    split
    · exact id
    case isFalse isIdle =>
      rw [Record.setStatus_stands]
      intro stands
      cases h with
      | priQueue priority => exact isIdle ((ok.ready priority).mp stands).2.1
      | eventList | readWriteList =>
          exact Bool.false_ne_true (notPend.symm.trans (ok.pend.mp ⟨_, by trivial, stands⟩))
      | freeTask =>
          exact Bool.false_ne_true (used.symm.trans (ok.free (Or.inl stands)).1)
      | taskRecyle =>
          exact Bool.false_ne_true (used.symm.trans (ok.free (Or.inr stands)).1)
      | pendList => exact ok.heads _ stands
  case isFalse notReady => exact ok.nowhere_used (Bool.eq_false_iff.mpr notReady) notPend used h

theorem Ok.unready_status (ok : Ok c taskID r current) :
    (r.unready c taskID).status = { r.status with ready := false, pend := false } := by
  rw [Record.unready]
  cases ready : r.status.ready with
  | true =>
      have notPend := (ok.flags.ready ready).1
      rw [if_pos rfl, Record.deQueue_status, ← notPend]
  | false =>
      rw [if_neg Bool.false_ne_true]
      cases pend : r.status.pend with
      | true => simp [ready]
      | false =>
          rw [if_neg Bool.false_ne_true]
          generalize r.status = status at ready pend ⊢
          cases status
          cases ready
          cases pend
          rfl

theorem Ok.unready_nowhere (ok : Ok c taskID r current) (used : r.status.unused = false)
    (h : Node) : ¬ (r.unready c taskID).stands h := by
  rw [Record.unready]
  cases ready : r.status.ready with
  | true => exact ok.deQueue_nowhere (ok.flags.ready ready).1 used h
  | false =>
      cases pend : r.status.pend with
      | true => exact id
      | false => exact ok.nowhere_used ready pend used h

theorem gives_osSchedTaskExit (here : At v taskID s r) (ok : Ok c taskID r current) :
    Gives v taskID (osSchedTaskExit c s taskID) (r.exit c taskID) := by
  rw [osSchedTaskExit, at_tcb here]
  dsimp only
  have unreadies := Layout.Gives.ite (p := r.status.ready)
    (fun ready => gives_osSchedTaskDeQueue (c := c) here ok.queued) fun _ =>
      Layout.Gives.ite (p := r.status.pend) (fun pend => by
        obtain ⟨h, isWait, stands⟩ := ok.pend.mpr pend
        exact (gives_listDelete here isWait.notQueue stands).bind fun s₁ here₁ =>
          (at_setStatus here₁ ({ · with pend := false })).pure) fun _ => here.pure
  refine unreadies.bind fun s₂ (here₂ : At v taskID s₂ (r.unready c taskID)) => ?_
  have status : (s₂.task taskID).taskStatus = _ :=
    (congrArg _ (at_tcb here₂)).trans ok.unready_status
  rw [status]
  exact Layout.Gives.ite (fun _ => (gives_deleteSortLink here₂).bind fun s₃ here₃ =>
    (at_setStatus here₃ ({ · with delay := false, pendTime := false })).pure) fun _ => here₂.pure

theorem Ok.exit_status (ok : Ok c taskID r current) :
    (r.exit c taskID).status = { r.status with
      ready := false, pend := false, delay := false, pendTime := false } := by
  rw [Record.exit]
  split
  case isTrue => rw [Record.setStatus_status, Record.untime_status, ok.unready_status]
  case isFalse none =>
    simp only [Bool.or_eq_true, not_or, Bool.not_eq_true] at none
    rw [ok.unready_status]
    generalize r.status = status at none ⊢
    cases status
    simp_all

theorem Ok.exit_nowhere (ok : Ok c taskID r current) (used : r.status.unused = false) (h : Node) :
    ¬ (r.exit c taskID).stands h := by
  rw [Record.exit]
  split <;> exact ok.unready_nowhere used h

theorem Ok.exit_untimed (ok : Ok c taskID r current) : ¬ (r.exit c taskID).Timed := by
  rw [Record.exit, Record.Timed]
  split
  case isTrue => exact not_not_intro rfl
  case isFalse none =>
    have untimed : ¬ r.Timed := by
      rw [ok.timed]
      simpa using fun _ => none
    have same : (r.unready c taskID).deadline = r.deadline := by
      rw [Record.unready]
      split
      · exact Record.deQueue_deadline r
      · split <;> rfl
    rw [same]
    exact untimed

/-! ## `OsSchedModifyTaskSchedParam` -/

theorem gives_osSchedModifyTaskSchedParam (here : At v taskID s r) (ok : Ok c taskID r current)
    {priority : Nat} (inside : priority < osPriorityQueueNum) :
    Gives v taskID (osSchedModifyTaskSchedParam c s taskID priority)
      (r.modify c taskID priority) := by
  rw [osSchedModifyTaskSchedParam, at_tcb here]
  refine Layout.Gives.ite (fun ready => ?_) fun _ => (at_setTask here _).pure
  obtain ⟨notPend, -, -, used, -⟩ := ok.flags.ready ready
  refine (gives_osSchedTaskDeQueue (c := c) here ok.queued).bind fun s₁ here₁ => ?_
  refine gives_osSchedTaskEnQueue (at_setTask here₁ ({ · with priority })) ?_ inside ?_
  · exact congrArg TaskStatus.ready (Record.deQueue_status r)
  · exact ok.deQueue_nowhere notPend used

theorem Ok.modify (ok : Ok c taskID r current) {priority : Nat}
    (inside : priority < osPriorityQueueNum) : Ok c taskID (r.modify c taskID priority) current := by
  rw [Record.modify]
  split
  case isTrue ready =>
    obtain ⟨notPend, notDelay, -, used, notCurrent⟩ := ok.flags.ready ready
    rw [eq_false notCurrent]
    refine ok_enQueue (ok.deQueue_nowhere notPend used) ?_ ?_ inside (ok.inside used).2
    · rw [Record.Timed, Record.setTcb_deadline, Record.deQueue_deadline]
      intro timed
      have waits := (ok.timed.mp timed).2
      simp [notDelay, ok.flags.notPendTime notPend] at waits
    · exact (congrArg TaskStatus.unused (Record.deQueue_status r)).trans used
  case isFalse notReady =>
    refine ⟨ok.flags, ?_, ok.pend, ok.free, ok.heads, ok.timed, fun used => ⟨inside, ?_⟩⟩
    · intro p
      exact iff_of_false (fun stands => notReady ((ok.ready p).mp stands).1)
        fun all => notReady all.1
    · exact (ok.inside used).2

end Steps

end EinkLiteOS.Kernel
