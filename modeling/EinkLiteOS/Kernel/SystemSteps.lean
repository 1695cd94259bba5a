/-
# Kernel.SystemSteps -- what every step does to the tasks and the events

What the calls, the clock and the switch do to `Sound`.  A call that works on one task is looked
at there only (`Sound.acts`); the reads and writes of events say who waits for which bits
(`Sound.waits`, `Sound.eventWrite`).  Nothing here looks at what is left of the calls.
-/
import EinkLiteOS.Kernel.System

namespace EinkLiteOS.Kernel

open EinkLiteOS.Theory EinkLiteOS.Theory.RingList

set_option autoImplicit false

section Steps

variable {c : KernelConfig} {sys : System} {v v' : View} {taskID : Nat}

/-! ## The tasks -/

/-- What is left of the calls does not matter. -/
theorem Sound.rest (sound : Sound c sys v) (rest : Nat → Option Rest) :
    Sound c { sys with rest } v :=
  ⟨sound.good, sound.scheduled, sound.idle, sound.times, sound.readers, sound.noSwtmr⟩

/-- Another lock. -/
theorem Sound.lock (sound : Sound c sys v) (taskLock : UInt16) :
    Sound c { sys with sched := { sys.sched with taskLock } } { v with taskLock } :=
  ⟨⟨{ sound.good.shows with taskLock := rfl },
    ⟨sound.good.consistent.ok, sound.good.consistent.running⟩⟩, sound.scheduled, sound.idle,
    sound.times, sound.readers, sound.noSwtmr⟩

/-- The software interrupt is set pending. -/
theorem Sound.pend (sound : Sound c sys v) :
    Sound c { sys with sched := { sys.sched with switchPending := true } }
      { v with switchPending := true } :=
  ⟨⟨{ sound.good.shows with switchPending := rfl },
    ⟨sound.good.consistent.ok, sound.good.consistent.running⟩⟩, sound.scheduled, sound.idle,
    sound.times, sound.readers, sound.noSwtmr⟩

/-- **`LOS_Schedule`** sets the software interrupt pending, unless the scheduler is locked. -/
theorem Sound.schedule (sound : Sound c sys v) :
    ∃ v', Sound c { sys with sched := losSchedule sys.sched } v' ∧
      v' = if v.taskLock = 0 then { v with switchPending := true } else v := by
  have shows := sound.good.shows
  have switches : (sys.sched.taskScheduled && sys.sched.taskLock = 0) = decide (v.taskLock = 0) := by
    rw [shows.taskScheduled, sound.scheduled, shows.taskLock, Bool.true_and]
  by_cases unlocked : v.taskLock = 0
  · rw [losSchedule, if_pos (switches.trans (decide_eq_true unlocked)), if_pos unlocked]
    exact ⟨_, sound.pend, rfl⟩
  · rw [losSchedule, if_neg (by rw [switches]; simpa using unlocked), if_neg unlocked]
    exact ⟨v, sound, rfl⟩

theorem Record.Acting.congr {r r' : Record} (acting : r.Acting) (same : r'.status = r.status) :
    r'.Acting := by
  obtain ⟨notPend, notDelay, notSuspend, used⟩ := acting
  constructor <;> rwa [same]

/-- A reader that is left finds its bits no sooner when there are fewer. -/
theorem View.Readers.below {event : Nat} {a b : BitVec 32} (readers : v.Readers event b)
    (below : Below a b) : v.Readers event a := fun t stands =>
  ⟨(readers t stands).1, fun finds => (readers t stands).2 (finds.mono below)⟩

/-- Readers that are left wait for the same bits. -/
theorem View.Readers.carries {event : Nat} {uwEventID : BitVec 32} {currTime : UInt64}
    (readers : v.Readers event uwEventID)
    (carries : ∀ t, (v.record t).Carries currTime (v'.record t)) :
    v'.Readers event uwEventID := by
  intro t stands
  obtain ⟨stood, mask, mode⟩ := (carries t).reads event stands
  obtain ⟨valid, waits⟩ := readers t stood
  rw [Record.Finds, mask, mode]
  exact ⟨valid, waits⟩

/-- **A step that lets no task read an event** keeps the rest of the invariant. -/
theorem Sound.carries (sound : Sound c sys v) {s : Sched} {currTime : UInt64}
    (good : Good c s v' (some v'.runTask)) (scheduled : v'.taskScheduled = true)
    (idle : (v'.record c.idleTaskID).status.unused = false) (later : sys.currTime ≤ currTime)
    (carries : ∀ t, (v.record t).Carries currTime (v'.record t)) :
    Sound c { sys with sched := s, currTime } v' :=
  ⟨good, scheduled, idle,
    fun t => (carries t).startTime (UInt64.le_trans (sound.times t) later),
    fun event => (sound.readers event).carries carries, sound.noSwtmr⟩

/-- The same, of a step that switches no task. -/
theorem Sound.stays (sound : Sound c sys v) {s : Sched} {currTime : UInt64}
    (good : Good c s v' (some v.runTask)) (globals : v'.globals = v.globals)
    (idle : (v'.record c.idleTaskID).status.unused = false) (later : sys.currTime ≤ currTime)
    (carries : ∀ t, (v.record t).Carries currTime (v'.record t)) :
    Sound c { sys with sched := s, currTime } v' := by
  have runTask : v'.runTask = v.runTask := congrArg Globals.runTask globals
  have scheduled : v'.taskScheduled = v.taskScheduled := congrArg Globals.taskScheduled globals
  rw [← runTask] at good
  exact sound.carries good (scheduled.trans sound.scheduled) idle later carries

theorem acts_carries {change : Record → Record} {currTime : UInt64}
    (acts : Acts v v' taskID change)
    (carries : (v.record taskID).Carries currTime (change (v.record taskID))) (t : Nat) :
    (v.record t).Carries currTime (v'.record t) :=
  acts.every (P := fun t r => (v.record t).Carries currTime r) carries
    (fun t _ => Record.Carries.refl (v.record t)) t

/-- **A step that works on one task.** -/
theorem Sound.acts (sound : Sound c sys v) {change : Record → Record} {s : Sched}
    (good : Good c s v' (some v.runTask)) (acts : Acts v v' taskID change)
    (idle : taskID = c.idleTaskID → (change (v.record taskID)).status.unused = false)
    (carries : (v.record taskID).Carries sys.currTime (change (v.record taskID))) :
    Sound c { sys with sched := s } v' := by
  refine sound.stays good (acts_globals acts) ?_ (UInt64.le_refl _) (acts_carries acts carries)
  by_cases here : c.idleTaskID = taskID
  · rw [here, acts_here acts]
    exact idle here.symm
  · rw [acts_others acts here]
    exact sound.idle

/-- The running task does not wait to be resumed. -/
theorem Sound.resume_running (sound : Sound c sys v) (acting : (v.record v.runTask).Acting) :
    Refused sys.sched (losTaskResume c sys.sched v.runTask) := by
  have start : At v v.runTask sys.sched (v.record v.runTask) :=
    Layout.At.start sound.good.shows v.runTask
  simp only [losTaskResume, at_tcb start]
  have notSuspend : (v.record v.runTask).tcb.taskStatus.suspend = false := acting.notSuspend
  split
  · exact ⟨_, by decide, rfl⟩
  · split
    · exact ⟨_, by decide, rfl⟩
    · rw [notSuspend]
      exact ⟨_, by decide, rfl⟩

/-- A task that is deleted reads no event. -/
theorem Ok.clear_carries {r : Record} {current : Prop} {currTime : UInt64} {h : Node}
    (ok : Ok c taskID r current) (used : r.status.unused = false)
    (notEvent : ∀ event, Node.eventList event ≠ h) :
    r.Carries currTime ((r.clear c taskID).link h) := by
  have exits : r.Carries currTime (r.exit c taskID) := .exit r
  have clears : r.Carries currTime (r.clear c taskID) :=
    ⟨exits.startTime, fun event stands => absurd stands (ok.exit_nowhere used _)⟩
  exact clears.trans (.link _ notEvent)

/-- The idle task is none that stands in for a deleted one. -/
theorem Sound.idleTask (sound : Sound c sys v) : c.taskMaxNum ≠ c.idleTaskID :=
  Nat.ne_of_gt ((sound.good.consistent.ok c.idleTaskID).inside sound.idle).2

/-- The running task deletes itself, and another one stands in for it. -/
theorem Sound.deleted (sound : Sound c sys v) {s : Sched} (deleted : Deleted c v v' v.runTask)
    (good : Good c s v' (some c.taskMaxNum)) (notIdle : v.runTask ≠ c.idleTaskID)
    (used : (v.record v.runTask).status.unused = false) : Sound c { sys with sched := s } v' := by
  have runTask : v'.runTask = c.taskMaxNum := congrArg Globals.runTask deleted.globals
  have scheduled : v'.taskScheduled = v.taskScheduled :=
    congrArg Globals.taskScheduled deleted.globals
  have ok := sound.good.consistent.ok v.runTask
  rw [← runTask] at good
  refine sound.carries good (scheduled.trans sound.scheduled) ?_ (UInt64.le_refl _) fun t => ?_
  · rw [deleted.others _ notIdle.symm sound.idleTask.symm]
    exact sound.idle
  · by_cases here : t = v.runTask
    · rw [here, deleted.here]
      exact ok.clear_carries used fun _ => Node.noConfusion
    · by_cases standIn : t = c.taskMaxNum
      · rw [standIn, deleted.standIn]
        exact .setStatus _ _
      · rw [deleted.others t here standIn]
        exact .refl _

theorem Recycled.status (recycled : Recycled v v') (taskID : Nat) :
    (v'.record taskID).status = (v.record taskID).status := by
  by_cases finished : (v.record taskID).stands .taskRecyle
  · rw [recycled.finished taskID finished]
    rfl
  · rw [recycled.others taskID finished]

/-- The finished tasks are free again. -/
theorem Sound.recycled (sound : Sound c sys v) {s : Sched} (good : Good c s v' (some v.runTask))
    (recycled : Recycled v v') : Sound c { sys with sched := s } v' := by
  refine sound.stays good recycled.globals ?_ (UInt64.le_refl _) fun t => ?_
  · rw [recycled.status]
    exact sound.idle
  · by_cases finished : (v.record t).stands .taskRecyle
    · rw [recycled.finished t finished]
      exact (Record.Carries.unlink _).trans (.link _ fun _ => Node.noConfusion)
    · rw [recycled.others t finished]
      exact .refl _

/-- Another priority for the running task. -/
theorem Ok.modify_acting {r : Record} {current : Prop} (ok : Ok c taskID r current)
    (here : current) (acting : r.Acting) (priority : Nat) :
    (r.modify c taskID priority).Acting := by
  have notReady := ok.flags.here here
  rw [Record.modify, if_neg (Bool.eq_false_iff.mp notReady)]
  exact acting.congr rfl

/-! ## Events -/

/-- An event loses bits. -/
theorem Sound.fewer (sound : Sound c sys v) {event : Nat} {bits : BitVec 32}
    (below : Below bits (sys.uwEventID event)) : Sound c (sys.setEvent event bits) v := by
  refine ⟨sound.good, sound.scheduled, sound.idle, sound.times, fun other => ?_, sound.noSwtmr⟩
  show v.Readers other (Function.update sys.uwEventID event bits other)
  by_cases here : other = event
  · subst here
    rw [Function.update_self]
    exact (sound.readers other).below below
  · rw [Function.update_of_ne here]
    exact sound.readers other

/-- What a task is that waits for bits. -/
def Record.read (event : Nat) (eventMask mode : BitVec 32) (timeOut : UInt32) (r : Record) :
    Record :=
  (r.setTcb ({ · with eventMask, eventMode := mode })).wait (.eventList event) timeOut

section Read

variable {event : Nat} {eventMask mode : BitVec 32} {timeOut : UInt32}

theorem Record.read_stands (r : Record) (h : Node) :
    (r.read event eventMask mode timeOut).stands h ↔ r.stands h ∨ h = .eventList event := by
  simp only [Record.read, Record.wait]
  split <;> rfl

theorem Record.read_tcb (r : Record) (event : Nat) (eventMask mode : BitVec 32)
    (timeOut : UInt32) :
    (r.read event eventMask mode timeOut).tcb.eventMask = eventMask ∧
      (r.read event eventMask mode timeOut).tcb.eventMode = mode ∧
      (r.read event eventMask mode timeOut).tcb.startTime = r.tcb.startTime ∧
      (r.read event eventMask mode timeOut).status.running = r.status.running := by
  simp only [Record.read, Record.wait]
  split <;> exact ⟨rfl, rfl, rfl, rfl⟩

/-- **`LOS_EventRead` waits** where the bits are not there. -/
theorem Sound.waits (sound : Sound c sys v) (acting : (v.record v.runTask).Acting)
    (notIdle : v.runTask ≠ c.idleTaskID) (timeOut : UInt32)
    (valid : osEventReadParamCheck eventMask mode = losOk)
    (notThere : ¬ Satisfied (sys.uwEventID event) eventMask mode) :
    ∃ s v', osSchedTaskWait (sys.sched.setTask sys.sched.runTask
        ({ · with eventMask, eventMode := mode })) (.eventList event) timeOut = some s ∧
      Sound c { sys with sched := s } v' ∧
      Acts v v' v.runTask (Record.read event eventMask mode timeOut) := by
  have shows := sound.good.shows
  have start : At v v.runTask sys.sched (v.record v.runTask) := Layout.At.start shows v.runTask
  have ok := sound.good.consistent.ok v.runTask
  rw [eq_true (rfl : some v.runTask = some v.runTask)] at ok
  have nowhere := ok.nowhere_used (ok.flags.here trivial) acting.notPend acting.used
  have okSet : Ok c v.runTask
      ((v.record v.runTask).setTcb ({ · with eventMask, eventMode := mode })) True :=
    ok.setTcb rfl rfl
  have gives : Gives v v.runTask _ ((v.record v.runTask).read event eventMask mode timeOut) :=
    gives_osSchedTaskWait (at_setTask start ({ · with eventMask, eventMode := mode })) okSet
      acting.notPend acting.used (show (Node.eventList event).Waits from trivial) timeOut
  obtain ⟨mask', mode', startTime, running⟩ :=
    (v.record v.runTask).read_tcb event eventMask mode timeOut
  have fits : Ok c v.runTask ((v.record v.runTask).read event eventMask mode timeOut) True :=
    okSet.wait acting.notPend acting.notDelay acting.used notIdle
      (show (Node.eventList event).Waits from trivial) timeOut
  rw [← eq_true (rfl : some v.runTask = some v.runTask)] at fits
  obtain ⟨s, v', ran, good, acts⟩ := sound.good.consistent.keeps gives running fits
  have globals := acts_globals acts
  have runTask : v'.runTask = v.runTask := congrArg Globals.runTask globals
  have scheduled : v'.taskScheduled = v.taskScheduled := congrArg Globals.taskScheduled globals
  rw [← runTask] at good
  rw [shows.runTask]
  refine ⟨s, v', ran, ⟨good, scheduled.trans sound.scheduled, ?_, fun t => ?_,
    fun other t stands => ?_, sound.noSwtmr⟩, acts.congr rfl⟩
  · rw [acts_others acts notIdle.symm]
    exact sound.idle
  · by_cases isRun : t = v.runTask
    · rw [isRun, acts_here acts, startTime]
      exact sound.times v.runTask
    · rw [acts_others acts isRun]
      exact sound.times t
  · by_cases isRun : t = v.runTask
    · rw [isRun, acts_here acts] at stands ⊢
      rw [Record.read_stands] at stands
      cases stands.resolve_left (nowhere _)
      rw [Record.Finds, mask', mode']
      exact ⟨valid, notThere⟩
    · rw [acts_others acts isRun] at stands ⊢
      exact sound.readers other t stands

/-- The record of a task that is told that its time was over. -/
theorem Ok.setTimeout {r : Record} {current : Prop} (ok : Ok c taskID r current) (timeout : Bool) :
    Ok c taskID (r.setStatus ({ · with timeout })) current :=
  ⟨⟨ok.flags.ready, ok.flags.pendTime, ok.flags.pend, ok.flags.unused, ok.flags.waits,
    ok.flags.idle⟩, ok.ready, ok.pend, ok.free, ok.heads, ok.timed, ok.inside⟩

/-- **`LOS_EventWrite`** leaves no reader in the list that finds its bits. -/
theorem Sound.eventWrite (sound : Sound c sys v) (event : Nat) (events : BitVec 32) :
    ∃ o v', losEventWrite c sys.sched (sys.uwEventID event) event events = some o ∧
      Sound c { sys.setEvent event o.uwEventID with sched := o.outcome.sched } v' ∧
      Woken c (fun t => (v.record t).stands (.eventList event)) o.uwEventID v v' := by
  by_cases noError : events &&& losErrtypeError = 0#32
  case neg =>
    rw [losEventWrite, if_pos noError]
    refine ⟨_, v, rfl, sound.fewer BitVec.and_self, ⟨fun t stands finds => ?_, fun _ _ => rfl, rfl⟩⟩
    exact absurd finds (sound.readers event t stands).2
  obtain ⟨s', v', woke, ran, good, woken, -⟩ :=
    sound.good.eventWrite (sound.readers event) noError
  have carries : ∀ t, (v.record t).Carries sys.currTime (v'.record t) := by
    intro t
    by_cases finds : (v.record t).stands (.eventList event) ∧
        (v.record t).Finds (sys.uwEventID event ||| events)
    · rw [woken.awake t finds.1 finds.2]
      exact .wake _
    · rw [woken.others t finds]
      exact .refl _
  have idle : (v'.record c.idleTaskID).status.unused = false := by
    have ok := sound.good.consistent.ok c.idleTaskID
    rw [woken.others]
    · exact sound.idle
    · rintro ⟨stands, -⟩
      have pend := ok.pend.mp ⟨.eventList event, trivial, stands⟩
      exact ok.flags.notIdle (Or.inl pend) rfl
  have runTask : v'.runTask = v.runTask := congrArg Globals.runTask woken.globals
  have sound' := sound.stays (runTask ▸ good) woken.globals idle (UInt64.le_refl _) carries
  refine ⟨_, v', ran, ⟨good, sound'.scheduled, sound'.idle, sound'.times,
    fun other t stands => ?_, sound.noSwtmr⟩, woken⟩
  show _ ∧ ¬ (v'.record t).Finds
    (Function.update sys.uwEventID event (sys.uwEventID event ||| events) other)
  by_cases here : other = event
  · subst here
    rw [Function.update_self]
    have stood := ((carries t).reads other stands).1
    by_cases finds : (v.record t).Finds (sys.uwEventID other ||| events)
    · rw [woken.awake t stood finds] at stands
      exact absurd stands (Record.wake_stands _ trivial)
    · rw [woken.others t fun both => finds both.2]
      exact ⟨(sound.readers other t stood).1, finds⟩
  · rw [Function.update_of_ne here]
    exact sound'.readers other t stands

end Read

/-! ## The clock -/

/-- `LOS_SchedTickHandler` looks for the tasks that are due. -/
theorem Sound.scans (sound : Sound c sys v) {time : UInt64} (later : sys.currTime ≤ time) :
    ∃ s' v' wakes, scanAll c sys.sched sys.swtmrs (some time) = some (s', sys.swtmrs, wakes) ∧
      Sound c { sys with sched := s', currTime := time } v' ∧ Scanned c time v v' := by
  obtain ⟨s', v', wakes, ran, good, scanned, -⟩ := sound.good.scan time
  refine ⟨s', v', wakes, ?_, sound.stays good scanned.globals ?_ later fun t => ?_, scanned⟩
  · simp only [scanAll, osSwtmrScan, sound.noSwtmr, if_true, ran, Option.bind_eq_bind,
      Option.bind_some, Bool.false_or]
    rfl
  · have ok := sound.good.consistent.ok c.idleTaskID
    rw [scanned.records, Record.scan, if_neg]
    · exact sound.idle
    · exact fun due => ok.flags.notIdle (ok.waits due.1).2.2 rfl
  · rw [scanned.records]
    exact .scan _ _

/-- The time slice of the running task. -/
theorem Sound.slice (sound : Sound c sys v) {currTime : UInt64} (later : sys.currTime ≤ currTime) :
    ∃ s' v', osTimeSliceUpdate c sys.sched currTime = some s' ∧
      Sound c { sys with sched := s', currTime } v' ∧
      Acts v v' v.runTask (Record.slice c currTime v.runTask) := by
  obtain ⟨s', v', ran, good, acts⟩ :=
    sound.good.slice (UInt64.le_trans (sound.times v.runTask) later)
  refine ⟨s', v', ran, sound.stays good (acts_globals acts) ?_ later
    (acts_carries acts (.slice _)), acts.congr rfl⟩
  rw [acts_field acts (f := fun r => r.status.unused) rfl]
  exact sound.idle

theorem Dispatched.carries {newTask : Nat} {currTime : UInt64}
    (dispatched : Dispatched c v v' newTask currTime) (t : Nat) :
    (v.record t).Carries currTime (v'.record t) := by
  by_cases here : t = newTask
  · subst here
    rw [dispatched.here]
    exact .run _
  · obtain ⟨running, record, -⟩ := dispatched.others t here
    rw [record]
    exact .setStatus _ _

/-- The records after a switch. -/
theorem Sound.switch_carries {v₁ v₂ : View} {newTask : Nat} {currTime : UInt64}
    (acts : Acts v v₁ v.runTask (Record.slice c currTime v.runTask))
    (dispatched : Dispatched c (v₁.requeue c) v₂ newTask currTime) (t : Nat) :
    (v.record t).Carries currTime (v₂.record t) := by
  have sliced := acts_carries acts (Record.Carries.slice _) t
  have requeued := sliced.trans (acts_carries (View.requeue_acts c v₁) (.requeue _) t)
  exact requeued.trans (dispatched.carries t)

/-- The task that gets the processor exists no less than before, and so do the others. -/
theorem Dispatched.used {newTask : Nat} {startTime : UInt64}
    (dispatched : Dispatched c v v' newTask startTime)
    (used : (v.record taskID).status.unused = false) :
    (v'.record taskID).status.unused = false := by
  by_cases here : taskID = newTask
  · rw [here, dispatched.here, Record.run_status]
    exact here ▸ used
  · obtain ⟨running, record, -⟩ := dispatched.others _ here
    rw [record]
    exact used

/-- The first task of the queues of a view gets the processor. -/
structure Switched (c : KernelConfig) (v v₁ v' : View) (newTask : Nat) (currTime : UInt64) :
    Prop where
  others : ∀ taskID, taskID ≠ v.runTask → v₁.record taskID = v.record taskID
  consistent : Consistent c v₁ none
  top : v₁.IsTop c newTask
  ready : (v₁.record newTask).status.ready = true
  dispatched : Dispatched c v₁ v' newTask currTime
  taskLock : v'.taskLock = v.taskLock

/-- **The switch**: the first task of the first queue runs. -/
theorem Sound.switch (sound : Sound c sys v) {currTime : UInt64} (later : sys.Later c currTime) :
    ∃ s' v₁ v' newTask, osSchedTaskSwitch c sys.sched currTime = some s' ∧
      Switched c v v₁ v' newTask currTime ∧ Sound c { sys with sched := s', currTime } v' := by
  obtain ⟨s', v₁, v', newTask, ran, acts, consistent, top, dispatched, globals, good⟩ :=
    sound.good.switch sound.idle
      (UInt64.le_trans (sound.times v.runTask) later.1) later.2
  have requeued := View.requeue_acts c v₁
  have idle₁ : ((v₁.requeue c).record c.idleTaskID).status.unused = false := by
    have sliced := acts_field (f := fun r => r.status.unused) acts rfl c.idleTaskID
    have same := acts_field (f := fun r => r.status.unused) requeued
      (Record.requeue_unused _) c.idleTaskID
    exact same.trans (sliced.trans sound.idle)
  have scheduled : v'.taskScheduled = v.taskScheduled := congrArg Globals.taskScheduled globals
  rw [← dispatched.runTask] at good
  refine ⟨s', v₁.requeue c, v', newTask, ran, ⟨fun t other => ?_, consistent, top,
    consistent.top_ready idle₁ top, dispatched, congrArg Globals.taskLock globals⟩,
    sound.carries good (scheduled.trans sound.scheduled) (dispatched.used idle₁) later.1
      (Sound.switch_carries acts dispatched)⟩
  have runTask := acts_runTask acts
  rw [acts_others requeued (runTask ▸ other), acts_others acts other]

/-- The task that has the processor after a switch waits for nothing. -/
theorem Switched.acting {v₁ : View} {newTask : Nat} {currTime : UInt64}
    (switched : Switched c v v₁ v' newTask currTime) : (v'.record v'.runTask).Acting := by
  obtain ⟨notPend, notDelay, notSuspend, used, -⟩ :=
    (switched.consistent.ok newTask).flags.ready switched.ready
  rw [switched.dispatched.runTask, switched.dispatched.here]
  constructor <;> rwa [Record.run_status]

/-- **`OsSchedStart`**, when no task has run yet and none waits for an event. -/
theorem Sound.start {s : Sched} (good : Good c s v none) (noTask : v.runTask = c.taskMaxNum)
    (idleUsed : (v.record c.idleTaskID).status.unused = false) {currTime : UInt64}
    (times : ∀ taskID, (v.record taskID).tcb.startTime ≤ currTime)
    (noReaders : ∀ event, v.queue (.eventList event) = []) (uwEventID : Nat → BitVec 32)
    {swtmrs : SortLink (Option Nat)} (noSwtmr : losListEmpty swtmrs.links none = true)
    (rest : Nat → Option Rest) :
    ∃ s' v' newTask, osSchedStart c s currTime = some s' ∧
      Sound c ⟨s', uwEventID, swtmrs, rest, currTime⟩ v' ∧
      Dispatched c v v' newTask currTime ∧ (v.record newTask).status.ready = true ∧
      v'.globals = ⟨newTask, v.taskLock, true, v.switchPending⟩ := by
  obtain ⟨s', v', newTask, ran, top, dispatched, globals, good'⟩ :=
    good.start noTask idleUsed currTime
  have nobody : ∀ event, v.Readers event (uwEventID event) := fun event t stands => by
    have inList : t ∈ v.queue (.eventList event) := stands
    rw [noReaders] at inList
    exact absurd inList List.not_mem_nil
  rw [← dispatched.runTask] at good'
  refine ⟨s', v', newTask, ran, ⟨good', congrArg Globals.taskScheduled globals, ?_,
    fun t => (dispatched.carries t).startTime (times t),
    fun event => (nobody event).carries dispatched.carries, noSwtmr⟩, dispatched,
    good.consistent.top_ready idleUsed top, globals⟩
  exact dispatched.used idleUsed

end Steps

end EinkLiteOS.Kernel
