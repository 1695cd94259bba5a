/-
# Kernel.SystemCalls -- what every step leaves of the calls

The running task calls the kernel, goes on with its call, and is switched away in between; a task
that a call creates is apart from everything until the call has come to its end.  Each step keeps
`Settled` (`Settled.step`), and so do the runs (`Settled.run`).
-/
import EinkLiteOS.Kernel.SystemSteps

namespace EinkLiteOS.Kernel

open EinkLiteOS.Theory EinkLiteOS.Theory.RingList

set_option autoImplicit false

section Calls

variable {c : KernelConfig} {sys sys' : System} {v v' : View} {taskID : Nat}
  {rest : Nat → Option Rest}

/-! ## The tasks that are being created -/

/-- A task that is being created is apart from everything. -/
theorem Creations.apart (creations : Creations c rest v) (creates : Creates rest taskID) :
    (v.record taskID).Apart := by
  obtain ⟨owner, r, isRest, same⟩ := creates
  have fits := creations.fits owner r isRest
  cases r with
  | createOnly newTask other =>
      cases same
      exact fits.2.2.1
  | create other =>
      cases same
      exact fits.1
  | schedule | readSchedule | eventRead | delay | createTake => cases same

theorem Sound.isTask (sound : Sound c sys v) (creations : Creations c rest v)
    (creates : Creates rest taskID) : taskID < c.taskMaxNum := by
  obtain ⟨owner, r, isRest, same⟩ := creates
  have fits := creations.fits owner r isRest
  cases r with
  | createOnly newTask other =>
      cases same
      exact fits.2.1
  | create other =>
      cases same
      exact ((sound.good.consistent.ok taskID).inside fits.2).2
  | schedule | readSchedule | eventRead | delay | createTake => cases same

/-- It has not got the processor. -/
theorem Sound.notRun (sound : Sound c sys v) (creations : Creations c rest v)
    (creates : Creates rest taskID) : taskID ≠ v.runTask := by
  have running := sound.good.consistent.isRunTask (sound.isTask creations creates)
  rw [(creations.apart creates).notRunning] at running
  exact of_decide_eq_false running.symm

theorem Rest.Fits.moves {r : Rest} (fits : r.Fits c v)
    (same : ∀ taskID, r.creates = some taskID → v'.record taskID = v.record taskID) :
    r.Fits c v' := by
  cases r with
  | createOnly newTask taskID =>
      rw [Rest.Fits, same taskID rfl]
      exact fits
  | create taskID =>
      rw [Rest.Fits, same taskID rfl]
      exact fits
  | createTake newTask => exact fits
  | schedule | readSchedule | eventRead | delay => trivial

/-- The same calls create tasks whose records have not changed. -/
theorem Creations.moves (creations : Creations c rest v)
    (same : ∀ taskID, Creates rest taskID → v'.record taskID = v.record taskID) :
    Creations c rest v' :=
  ⟨fun owner r isRest => (creations.fits owner r isRest).moves fun taskID creates =>
    same taskID ⟨owner, r, isRest, creates⟩, creations.once⟩

/-- What is left of a call, when that of one task has changed. -/
theorem update_some {owner other : Nat} {next : Option Rest} {r : Rest}
    (isRest : Function.update rest owner next other = some r) :
    (other = owner ∧ next = some r) ∨ (other ≠ owner ∧ rest other = some r) := by
  by_cases here : other = owner
  · subst here
    rw [Function.update_self] at isRest
    exact Or.inl ⟨rfl, isRest⟩
  · rw [Function.update_of_ne here] at isRest
    exact Or.inr ⟨here, isRest⟩

/-- The tasks that are created by the calls of the others. -/
theorem creates_without {owner : Nat} :
    Creates (Function.update rest owner none) taskID ↔
      ∃ other r, other ≠ owner ∧ rest other = some r ∧ r.creates = some taskID := by
  constructor
  · rintro ⟨other, r, isRest, creates⟩
    rcases update_some isRest with ⟨-, isNone⟩ | ⟨different, isRest⟩
    · cases isNone
    · exact ⟨other, r, different, isRest, creates⟩
  · rintro ⟨other, r, different, isRest, creates⟩
    exact ⟨other, r, by rw [Function.update_of_ne different, isRest], creates⟩

theorem Creates.mono {owner : Nat} (creates : Creates (Function.update rest owner none) taskID) :
    Creates rest taskID := by
  obtain ⟨other, r, -, isRest, same⟩ := creates_without.mp creates
  exact ⟨other, r, isRest, same⟩

/-- What one call creates, no other call creates. -/
theorem Creations.alone (creations : Creations c rest v) {owner : Nat} {r : Rest}
    (isRest : rest owner = some r) (same : r.creates = some taskID) :
    ¬ Creates (Function.update rest owner none) taskID := by
  intro creates
  obtain ⟨other, r', different, isRest', same'⟩ := creates_without.mp creates
  exact different (creations.once other owner r' r taskID isRest' isRest same' same)

/-- What is left of one call is another rest, which fits, and creates what no other call does. -/
theorem Creations.update (creations : Creations c rest v) {owner : Nat} {next : Option Rest}
    (same : ∀ taskID, Creates (Function.update rest owner none) taskID →
      v'.record taskID = v.record taskID)
    (fits : ∀ r, next = some r → r.Fits c v')
    (fresh : ∀ r taskID, next = some r → r.creates = some taskID →
      ¬ Creates (Function.update rest owner none) taskID) :
    Creations c (Function.update rest owner next) v' := by
  constructor
  · intro other r isRest
    rcases update_some isRest with ⟨-, isNext⟩ | ⟨different, isRest⟩
    · exact fits r isNext
    · refine (creations.fits other r isRest).moves fun taskID creates => same taskID ?_
      exact creates_without.mpr ⟨other, r, different, isRest, creates⟩
  · intro other other' r r' taskID isRest isRest' creates creates'
    rcases update_some isRest with ⟨here, isNext⟩ | ⟨different, isRest⟩ <;>
      rcases update_some isRest' with ⟨here', isNext'⟩ | ⟨different', isRest'⟩
    · exact here.trans here'.symm
    · refine absurd (creates_without.mpr ?_) (fresh r taskID isNext creates)
      exact ⟨other', r', different', isRest', creates'⟩
    · refine absurd (creates_without.mpr ?_) (fresh r' taskID isNext' creates')
      exact ⟨other, r, different, isRest, creates⟩
    · exact creations.once other other' r r' taskID isRest isRest' creates creates'

/-! ## Steps -/

/-- A step ends in a state that is settled. -/
def Settled.Ends (c : KernelConfig) (result : Option System) : Prop :=
  ∃ sys' v', result = some sys' ∧ Settled c sys' v'

/-- What is left of the call of the running task after a step. -/
structure Next (c : KernelConfig) (rest : Nat → Option Rest) (v : View) (next : Option Rest) :
    Prop where
  fits : ∀ r, next = some r → r.Fits c v
  fresh : ∀ r taskID, next = some r → r.creates = some taskID →
    ¬ Creates (Function.update rest v.runTask none) taskID
  goes : v.Goes next
  delays : ∀ tick, next = some (.delay tick) → v.taskLock = 0

/-- At most `LOS_Schedule` is left. -/
theorem Next.ends {schedule : Bool}
    (goes : (v.record v.runTask).Acting ∨ (schedule = true ∧ v.taskLock = 0)) :
    Next c rest v (if schedule then some .schedule else none) := by
  have isSchedule : ∀ r, (if schedule then some Rest.schedule else none) = some r →
      r = .schedule := by
    intro r isRest
    split at isRest
    · exact (Option.some.inj isRest).symm
    · cases isRest
  refine ⟨fun r isRest => ?_, fun r _ isRest creates => ?_, ?_, fun tick isRest => ?_⟩
  · rw [isSchedule r isRest]
    trivial
  · rw [isSchedule r isRest] at creates
    cases creates
  · rcases goes with acting | ⟨rfl, unlocked⟩
    · exact Or.inl acting
    · exact Or.inr (Or.inr ⟨rfl, unlocked⟩)
  · exact Rest.noConfusion (isSchedule _ isRest)

/-- Nothing is left. -/
theorem Next.none (goes : v.Goes none) : Next c rest v none := by
  refine ⟨fun _ isRest => ?_, fun _ _ isRest => ?_, goes, fun _ isRest => ?_⟩ <;> cases isRest

/-- `LOS_TaskCreate` goes on with the task that it has made. -/
theorem Next.creates {enQueue : Bool} (fits : (Rest.create taskID).Fits c v)
    (alone : ¬ Creates (Function.update rest v.runTask .none) taskID)
    (acting : (v.record v.runTask).Acting) :
    Next c rest v (if enQueue then some (.create taskID) else .none) := by
  cases enQueue with
  | false => exact .none (Or.inl acting)
  | true =>
      refine ⟨fun r isRest => ?_, fun r t isRest same => ?_, Or.inl acting, fun _ isRest => ?_⟩
      · cases isRest
        exact fits
      · cases isRest
        cases same
        exact alone
      · cases isRest

/-- **A step of the running task**, which may work on an event, too. -/
theorem Settled.left (settled : Settled c sys v) {s : Sched} {next : Option Rest}
    (rests : sys'.rest = sys.rest) (sound : Sound c { sys' with sched := s } v')
    (same : ∀ taskID, Creates (Function.update sys.rest v'.runTask none) taskID →
      v'.record taskID = v.record taskID)
    (isNext : Next c sys.rest v' next) (notIdle : v'.runTask ≠ c.idleTaskID)
    (unlocked : v'.switchPending = true → v'.taskLock = 0) : Settled c (sys'.left s next) v' := by
  have runTask : s.runTask = v'.runTask := sound.good.shows.runTask
  have isRest : (sys'.left s next).rest = Function.update sys.rest v'.runTask next := by
    show Function.update sys'.rest s.runTask next = _
    rw [runTask, rests]
  have left : (sys'.left s next).rest v'.runTask = next := by
    rw [isRest, Function.update_self]
  refine ⟨sound.rest _, ?_, ?_, ?_, unlocked, ?_⟩
  · rw [isRest]
    exact settled.creations.update same isNext.fits isNext.fresh
  · rw [isRest, Function.update_of_ne notIdle.symm]
    exact settled.idleRest
  · rw [left]
    exact isNext.goes
  · rw [left]
    exact isNext.delays

/-- The scheduler is still not locked where the switch is pending. -/
theorem Settled.still (settled : Settled c sys v) (globals : v'.globals = v.globals) :
    v'.switchPending = true → v'.taskLock = 0 := by
  have taskLock : v'.taskLock = v.taskLock := congrArg Globals.taskLock globals
  have pending : v'.switchPending = v.switchPending := congrArg Globals.switchPending globals
  rw [pending, taskLock]
  exact settled.unlocked

/-- **A step of an interrupt**, or of the idle task. -/
theorem Settled.keeps (settled : Settled c sys v) (sound : Sound c sys' v')
    (isRest : sys'.rest = sys.rest)
    (same : ∀ taskID, Creates sys.rest taskID → v'.record taskID = v.record taskID)
    (globals : v'.globals = v.globals)
    (acting : (v.record v.runTask).Acting → (v'.record v.runTask).Acting) : Settled c sys' v' := by
  have runTask : v'.runTask = v.runTask := congrArg Globals.runTask globals
  have taskLock : v'.taskLock = v.taskLock := congrArg Globals.taskLock globals
  have pending : v'.switchPending = v.switchPending := congrArg Globals.switchPending globals
  refine ⟨sound, ?_, ?_, ?_, settled.still globals, ?_⟩
  · rw [isRest]
    exact settled.creations.moves same
  · rw [isRest]
    exact settled.idleRest
  · rw [isRest, runTask, View.Goes, runTask, taskLock, pending]
    exact settled.goes.imp_left acting
  · rw [isRest, runTask, taskLock]
    exact settled.delays

/-- The software interrupt is set pending, where the scheduler is not locked. -/
theorem Settled.pend (settled : Settled c sys v) (unlocked : v.taskLock = 0) :
    Settled c { sys with sched := { sys.sched with switchPending := true } }
      { v with switchPending := true } :=
  ⟨settled.sound.pend, settled.creations.moves fun _ _ => rfl, settled.idleRest, Or.inr (Or.inl rfl),
    fun _ => unlocked, fun _ _ => unlocked⟩

/-- A task that does anything but `LOS_Schedule` waits for nothing. -/
theorem Settled.acting (settled : Settled c sys v) (notPending : sys.sched.switchPending = false)
    (notSchedule : (sys.rest v.runTask).any Rest.schedules = false) :
    (v.record v.runTask).Acting := by
  rw [settled.sound.good.shows.switchPending] at notPending
  rcases settled.goes with acting | pending | ⟨schedules, -⟩
  · exact acting
  · exact absurd (notPending.symm.trans pending) Bool.false_ne_true
  · exact absurd (notSchedule.symm.trans schedules) Bool.false_ne_true

/-- A call is refused. -/
theorem Settled.refused (settled : Settled c sys v) (acting : (v.record v.runTask).Acting)
    (notIdle : v.runTask ≠ c.idleTaskID) {result : Option Outcome}
    (refused : Refused sys.sched result) : Settled.Ends c (result.map sys.ends) := by
  obtain ⟨ret, -, rfl⟩ := refused
  exact ⟨_, v, rfl, settled.left rfl settled.sound (fun _ _ => rfl) (Next.ends (Or.inl acting)) notIdle
    settled.unlocked⟩

/-- **A call that works on one task**, which no call creates. -/
theorem Settled.performs (settled : Settled c sys v) (acting : (v.record v.runTask).Acting)
    (notIdle : v.runTask ≠ c.idleTaskID) {change : Record → Record} {schedule : Bool}
    {result : Option Outcome}
    (performs : Performs c v (some v.runTask) taskID change schedule result)
    (notCreated : taskID ≠ v.runTask → ¬ Creates (Function.update sys.rest v.runTask none) taskID)
    (idle : taskID = c.idleTaskID → (change (v.record taskID)).status.unused = false)
    (carries : (v.record taskID).Carries sys.currTime (change (v.record taskID)))
    (goes : taskID = v.runTask → (change (v.record taskID)).Acting ∨
      (schedule = true ∧ v.taskLock = 0)) : Settled.Ends c (result.map sys.ends) := by
  obtain ⟨s, v', rfl, good, acts⟩ := performs
  have sound := settled.sound.acts good acts idle carries
  have runTask := acts_runTask acts
  have taskLock : v'.taskLock = v.taskLock := congrArg Globals.taskLock (acts_globals acts)
  refine ⟨_, v', rfl, settled.left rfl sound (fun t creates => ?_) (Next.ends ?_) (runTask ▸ notIdle)
    (settled.still (acts_globals acts))⟩
  · rw [runTask] at creates
    refine acts_others acts fun here => ?_
    subst here
    have notRun := settled.sound.notRun settled.creations creates.mono
    exact notCreated notRun creates
  · rw [runTask, taskLock]
    by_cases here : taskID = v.runTask
    · rw [← here, acts_here acts]
      exact goes here
    · rw [acts_others acts (Ne.symm here)]
      exact Or.inl acting

/-- A task that goes on is none that a write wakes. -/
theorem Sound.woken_acting (sound : Sound c sys v) (acting : (v.record v.runTask).Acting)
    {event : Nat} {bits : BitVec 32}
    (woken : Woken c (fun t => (v.record t).stands (.eventList event)) bits v v') :
    (v'.record v.runTask).Acting := by
  rw [woken.others]
  · exact acting
  · rintro ⟨stands, -⟩
    have pend := (sound.good.consistent.ok v.runTask).pend.mp ⟨.eventList event, trivial, stands⟩
    exact Bool.false_ne_true (acting.notPend.symm.trans pend)

/-- An event loses bits. -/
theorem Settled.fewer (settled : Settled c sys v) {event : Nat} {bits : BitVec 32}
    (below : Below bits (sys.uwEventID event)) : Settled c (sys.setEvent event bits) v :=
  ⟨settled.sound.fewer below, settled.creations, settled.idleRest, settled.goes, settled.unlocked,
    settled.delays⟩

/-- A task that has not got the processor begins at its entry. -/
theorem Settled.begins (settled : Settled c sys v) (notRun : taskID ≠ v.runTask) :
    Settled c (sys.begins taskID) v := by
  have here : (sys.begins taskID).rest v.runTask = sys.rest v.runTask :=
    Function.update_of_ne notRun.symm _ _
  refine ⟨settled.sound.rest _, ?_, ?_, ?_, settled.unlocked, ?_⟩
  · exact settled.creations.update (fun _ _ => rfl) (fun _ isRest => by cases isRest)
      fun _ _ isRest => by cases isRest
  · show Function.update sys.rest taskID none c.idleTaskID = none
    by_cases isIdle : c.idleTaskID = taskID
    · rw [isIdle, Function.update_self]
    · rw [Function.update_of_ne isIdle]
      exact settled.idleRest
  · rw [here]
    exact settled.goes
  · rw [here]
    exact settled.delays

theorem System.setEvent_self (sys : System) (event : Nat) :
    sys.setEvent event (sys.uwEventID event) = sys := by
  rw [System.setEvent, Function.update_eq_self]

/-! ## The calls -/

section Call

variable (settled : Settled c sys v) (acting : (v.record v.runTask).Acting)
  (notIdle : v.runTask ≠ c.idleTaskID)
include settled acting notIdle

theorem Settled.suspend (taskID : Nat) (notCreated : ¬ Creates sys.rest taskID) :
    Settled.Ends c (sys.call c (.suspend taskID)) := by
  rcases settled.sound.good.suspend taskID with refused | ⟨-, -, other, unlocked, performs⟩
  · exact settled.refused acting notIdle refused
  · exact settled.performs acting notIdle performs (fun _ creates => notCreated creates.mono)
      (fun isIdle => absurd isIdle other) (.suspend _)
      fun here => Or.inr ⟨decide_eq_true here, unlocked here⟩

theorem Settled.resume (taskID : Nat) (notCreated : ¬ Creates sys.rest taskID) :
    Settled.Ends c (sys.call c (.resume taskID)) := by
  by_cases here : v.runTask = taskID
  · subst here
    exact settled.refused acting notIdle (settled.sound.resume_running acting)
  · rcases settled.sound.good.resume fun same => here (Option.some.inj same) with
      refused | ⟨-, performs⟩
    · exact settled.refused acting notIdle refused
    · refine settled.performs acting notIdle performs (fun _ creates => notCreated creates.mono)
        (fun isIdle => ?_) (.resume _) fun isRun => absurd isRun.symm here
      have used : (v.record taskID).status.unused = false := isIdle ▸ settled.sound.idle
      simp only [Record.resume]
      split
      · rw [Record.enQueue_status]
        exact used
      · exact used

theorem Settled.priSet (taskID : Nat) (taskPrio : UInt16) (notCreated : ¬ Creates sys.rest taskID) :
    Settled.Ends c (sys.call c (.priSet taskID taskPrio)) := by
  rcases settled.sound.good.priSet taskID taskPrio with refused | ⟨-, other, performs⟩
  · exact settled.refused acting notIdle refused
  · refine settled.performs acting notIdle performs (fun _ creates => notCreated creates.mono)
      (fun isIdle => absurd isIdle other) (.modify _ _) fun here => Or.inl ?_
    have ok := settled.sound.good.consistent.ok taskID
    exact ok.modify_acting (congrArg some here).symm (here ▸ acting) _

theorem Settled.yield : Settled.Ends c (some (sys.ends (losTaskYield sys.sched))) :=
  settled.performs acting notIdle settled.sound.good.yield (fun other => absurd rfl other)
    (fun isIdle => absurd isIdle notIdle) (.setTcb rfl rfl rfl) fun _ => Or.inl (acting.congr rfl)

theorem Settled.delayCheck (tick : UInt32) : Settled.Ends c (sys.call c (.delay tick)) := by
  have shows := settled.sound.good.shows
  rw [System.call]
  split
  case isTrue valid =>
    have unlocked : v.taskLock = 0 := by
      by_contra locked
      rw [losTaskDelayCheck, if_neg Bool.false_ne_true, shows.taskLock, if_pos locked] at valid
      cases valid
    refine ⟨_, v, rfl, settled.left rfl settled.sound (fun _ _ => rfl) ?_ notIdle settled.unlocked⟩
    refine ⟨fun r isRest => ?_, fun r _ isRest creates => ?_, Or.inl acting, fun _ _ => unlocked⟩
    · cases isRest
      trivial
    · cases isRest
      cases creates
  case isFalse =>
    exact ⟨_, v, rfl, settled.left rfl settled.sound (fun _ _ => rfl) (.none (Or.inl acting)) notIdle
      settled.unlocked⟩

theorem Settled.lock (notPending : sys.sched.switchPending = false) :
    Settled.Ends c (sys.call c .lock) := by
  rw [settled.sound.good.shows.switchPending] at notPending
  refine ⟨_, _, rfl, settled.left rfl (settled.sound.lock (sys.sched.taskLock + 1)) (fun _ _ => rfl)
    (.ends (Or.inl acting)) notIdle fun pending => ?_⟩
  exact absurd (notPending.symm.trans pending) Bool.false_ne_true

theorem Settled.unlock (notPending : sys.sched.switchPending = false) :
    Settled.Ends c (sys.call c .unlock) := by
  rw [settled.sound.good.shows.switchPending] at notPending
  rw [System.call, losTaskUnlock]
  split
  · refine ⟨_, _, rfl, settled.left rfl (settled.sound.lock (sys.sched.taskLock - 1)) (fun _ _ => rfl)
      (.ends (Or.inl acting)) notIdle fun pending => ?_⟩
    exact absurd (notPending.symm.trans pending) Bool.false_ne_true
  · exact ⟨_, v, rfl, settled.left rfl settled.sound (fun _ _ => rfl) (.ends (Or.inl acting)) notIdle
      settled.unlocked⟩

theorem Settled.delete (taskID : Nat) (notCreated : ¬ Creates sys.rest taskID) :
    Settled.Ends c (sys.call c (.delete taskID)) := by
  by_cases here : taskID = v.runTask
  · subst here
    rcases settled.sound.good.deleteRunning with refused | ⟨used, -, s', v', ran, good, deleted⟩
    · exact settled.refused acting notIdle refused
    · have unlocked : v'.taskLock = 0 := congrArg Globals.taskLock deleted.globals
      have runTask : v'.runTask = c.taskMaxNum := congrArg Globals.runTask deleted.globals
      refine ⟨sys.ends ⟨s', losOk, true⟩, v', by rw [System.call, ran]; rfl,
        settled.left rfl (settled.sound.deleted deleted good notIdle used) (fun t creates => ?_)
        (.ends (Or.inr ⟨rfl, unlocked⟩)) (runTask ▸ settled.sound.idleTask) fun _ => unlocked⟩
      refine deleted.others t (settled.sound.notRun settled.creations creates.mono) ?_
      exact Nat.ne_of_lt (settled.sound.isTask settled.creations creates.mono)
  · rcases settled.sound.good.delete here with refused | ⟨used, other, performs⟩
    · exact settled.refused acting notIdle refused
    · have ok := settled.sound.good.consistent.ok taskID
      exact settled.performs acting notIdle performs (fun _ creates => notCreated creates.mono)
        (fun isIdle => absurd isIdle other) (ok.clear_carries used fun _ => Node.noConfusion)
        fun isRun => absurd isRun here

/-- **`LOS_TaskCreate`** begins. -/
theorem Settled.createCheck (newTask : NewTask) : Settled.Ends c (sys.call c (.create newTask)) := by
  rw [System.call]
  rcases settled.sound.good.createCheck newTask.taskInitParam with
    ⟨ret, failed, ran⟩ | ⟨inside, s', v', ran, good, recycled⟩
  · rw [ran]
    refine ⟨sys.left sys.sched none, v, ?_, settled.left rfl settled.sound (fun _ _ => rfl)
      (.none (Or.inl acting)) notIdle settled.unlocked⟩
    show some (sys.left sys.sched (if ret = losOk then _ else _)) = _
    rw [if_neg failed]
  · have runTask : v'.runTask = v.runTask := congrArg Globals.runTask recycled.globals
    have goes : (v'.record v'.runTask).Acting := by
      rw [runTask]
      exact acting.congr (recycled.status v.runTask)
    rw [ran]
    refine ⟨_, v', rfl, settled.left rfl (settled.sound.recycled good recycled) (fun t creates => ?_)
      ⟨fun r isRest => ?_, fun r _ isRest creates => ?_, Or.inl goes, fun _ isRest => ?_⟩
      (runTask ▸ notIdle) (settled.still recycled.globals)⟩
    · exact recycled.others t ((settled.creations.apart creates.mono).nowhere _)
    · cases isRest
      exact inside
    · cases isRest
      cases creates
    · cases isRest

/-- A read that does not wait. -/
theorem Settled.reads {event : Nat} {bits : BitVec 32} (below : Below bits (sys.uwEventID event)) :
    Settled.Ends c (some ((sys.setEvent event bits).left sys.sched none)) :=
  ⟨_, v, rfl, settled.left rfl (settled.sound.fewer below) (fun _ _ => rfl) (.none (Or.inl acting))
    notIdle settled.unlocked⟩

/-- **`LOS_EventRead`** -/
theorem Settled.eventRead (event : Nat) (eventMask mode : BitVec 32) (timeOut : UInt32) :
    Settled.Ends c (sys.call c (.eventRead event eventMask mode timeOut)) := by
  simp only [System.call, losEventRead]
  by_cases valid : osEventReadParamCheck eventMask mode = losOk
  case neg =>
    rw [if_pos valid]
    exact settled.reads acting notIdle BitVec.and_self
  have below := below_poll (sys.uwEventID event) eventMask mode
  rw [if_neg (not_not_intro valid), if_neg Bool.false_ne_true]
  by_cases there : (losEventPoll (sys.uwEventID event) eventMask mode).1 ≠ 0#32
  case pos =>
    rw [if_pos there]
    exact settled.reads acting notIdle below
  rw [if_neg there]
  split
  · exact settled.reads acting notIdle below
  split
  · exact settled.reads acting notIdle below
  case isFalse unlocked =>
    rw [settled.sound.good.shows.taskLock] at unlocked
    obtain ⟨s, v', ran, sound, acts⟩ := settled.sound.waits acting notIdle timeOut valid there
    have runTask := acts_runTask acts
    have taskLock : v'.taskLock = 0 :=
      (congrArg Globals.taskLock (acts_globals acts)).trans (not_not.mp unlocked)
    simp only [ran, Option.bind_eq_bind, Option.bind_some]
    refine ⟨_, v', rfl, settled.left rfl (sound.fewer below) (fun t creates => ?_)
      ⟨fun r isRest => ?_, fun r _ isRest creates => ?_, Or.inr (Or.inr ⟨rfl, taskLock⟩),
        fun _ isRest => ?_⟩ (runTask ▸ notIdle) fun _ => taskLock⟩
    · exact acts_others acts (settled.sound.notRun settled.creations creates.mono)
    · cases isRest
      trivial
    · cases isRest
      cases creates
    · cases isRest

/-- **`LOS_EventWrite`**, of a task. -/
theorem Settled.eventWrite (event : Nat) (events : BitVec 32) :
    Settled.Ends c (sys.call c (.eventWrite event events)) := by
  obtain ⟨o, v', ran, sound, woken⟩ := settled.sound.eventWrite event events
  have runTask : v'.runTask = v.runTask := congrArg Globals.runTask woken.globals
  simp only [System.call, ran, Option.bind_eq_bind, Option.bind_some]
  refine ⟨_, v', rfl, settled.left rfl sound (fun t creates => ?_) (.ends (Or.inl ?_))
    (runTask ▸ notIdle) (settled.still woken.globals)⟩
  · exact woken.others t fun both =>
      (settled.creations.apart creates.mono).nowhere _ both.1
  · rw [runTask]
    exact settled.sound.woken_acting acting woken

end Call

/-- **`LOS_Schedule`**, of a task. -/
theorem Settled.schedule (settled : Settled c sys v) (notIdle : v.runTask ≠ c.idleTaskID)
    {next : Option Rest}
    (isNext : ∀ r, next = some r → ∃ event eventMask mode, r = .eventRead event eventMask mode) :
    Settled.Ends c (some (sys.left (losSchedule sys.sched) next)) := by
  obtain ⟨v', sound, same⟩ := settled.sound.schedule
  have records : ∀ t, v'.record t = v.record t := fun t => by
    rw [same]
    split <;> rfl
  have runTask : v'.runTask = v.runTask := by
    rw [same]
    split <;> rfl
  have goes : v'.Goes next := by
    rw [same]
    split
    case isTrue => exact Or.inr (Or.inl rfl)
    case isFalse locked =>
      rcases settled.goes with acting | pending | ⟨-, unlocked⟩
      · exact Or.inl acting
      · exact Or.inr (Or.inl pending)
      · exact absurd unlocked locked
  refine ⟨_, v', rfl, settled.left rfl sound (fun t _ => records t)
    ⟨fun r isRest => ?_, fun r _ isRest creates => ?_, goes, fun _ isRest => ?_⟩
    (runTask ▸ notIdle) ?_⟩
  · obtain ⟨event, eventMask, mode, rfl⟩ := isNext r isRest
    trivial
  · obtain ⟨event, eventMask, mode, rfl⟩ := isNext r isRest
    cases creates
  · obtain ⟨event, eventMask, mode, same⟩ := isNext _ isRest
    cases same
  · rw [same]
    split
    case isTrue unlocked => exact fun _ => unlocked
    case isFalse => exact settled.unlocked

/-- **What the running task calls** keeps everything settled. -/
theorem Settled.call (settled : Settled c sys v) {taskCall : TaskCall}
    (may : sys.May c (.call taskCall)) : Settled.Ends c (sys.call c taskCall) := by
  obtain ⟨notPending, notIdle, noRest, notCreated⟩ := may
  rw [settled.sound.good.shows.runTask] at notIdle noRest
  have acting := settled.acting notPending (by rw [noRest]; rfl)
  cases taskCall with
  | suspend taskID => exact settled.suspend acting notIdle taskID (notCreated taskID rfl)
  | resume taskID => exact settled.resume acting notIdle taskID (notCreated taskID rfl)
  | priSet taskID taskPrio =>
      exact settled.priSet acting notIdle taskID taskPrio (notCreated taskID rfl)
  | yield => exact settled.yield acting notIdle
  | delay tick => exact settled.delayCheck acting notIdle tick
  | lock => exact settled.lock acting notIdle notPending
  | unlock => exact settled.unlock acting notIdle notPending
  | delete taskID => exact settled.delete acting notIdle taskID (notCreated taskID rfl)
  | create newTask => exact settled.createCheck acting notIdle newTask
  | eventRead event eventMask mode timeOut =>
      exact settled.eventRead acting notIdle event eventMask mode timeOut
  | eventWrite event events => exact settled.eventWrite acting notIdle event events
  | eventClear event eventMask => exact ⟨_, v, rfl, settled.fewer (below_clear _ eventMask)⟩
  | schedule => exact settled.schedule notIdle fun _ isRest => by cases isRest

/-! ## The rest of the calls -/

section GoOn

variable (settled : Settled c sys v) (acting : (v.record v.runTask).Acting)
  (notIdle : v.runTask ≠ c.idleTaskID)
include settled acting notIdle

/-- **The rest of `LOS_EventRead`** -/
theorem Settled.eventReadRest (event : Nat) (eventMask mode : BitVec 32) :
    Settled.Ends c (sys.goOn c (.eventRead event eventMask mode)) := by
  have start : At v v.runTask sys.sched (v.record v.runTask) :=
    Layout.At.start settled.sound.good.shows v.runTask
  simp only [System.goOn, losEventReadRest, at_runTask start, at_tcb start]
  split
  · rw [System.setEvent_self]
    have performs : Performs c v (some v.runTask) v.runTask
        (Record.setStatus ({ · with timeout := false })) false (some ⟨_, losOk, false⟩) :=
      settled.sound.good.consistent.performs (at_setStatus start ({ · with timeout := false })) rfl
        ((settled.sound.good.consistent.ok v.runTask).setTimeout false) rfl
    exact settled.performs acting notIdle performs (fun other => absurd rfl other)
      (fun isIdle => absurd isIdle notIdle) (.setStatus _ _)
      fun _ => Or.inl ⟨acting.notPend, acting.notDelay, acting.notSuspend, acting.used⟩
  · exact settled.reads acting notIdle (below_poll _ _ _)

/-- **The rest of `LOS_TaskDelay`** -/
theorem Settled.delay {tick : UInt32} (isRest : sys.rest v.runTask = some (.delay tick)) :
    Settled.Ends c (sys.goOn c (.delay tick)) := by
  rw [System.goOn]
  by_cases zero : tick = 0
  · rw [losTaskDelay, if_pos zero]
    exact settled.yield acting notIdle
  · exact settled.performs acting notIdle
      (settled.sound.good.delay acting.notPend acting.used notIdle zero)
      (fun other => absurd rfl other) (fun isIdle => absurd isIdle notIdle) (.setTcb rfl rfl rfl)
      fun _ => Or.inr ⟨rfl, settled.delays tick isRest⟩

/-- **`LOS_TaskCreateOnly`** takes a task, which is apart from everything then. -/
theorem Settled.createTake {newTask : NewTask}
    (isRest : sys.rest v.runTask = some (.createTake newTask)) :
    Settled.Ends c (sys.goOn c (.createTake newTask)) := by
  have inside : newTask.taskInitParam.usTaskPrio.toNat < osPriorityQueueNum :=
    settled.creations.fits _ _ isRest
  rw [System.goOn]
  rcases settled.sound.good.createTake with ⟨ret, -, ran⟩ | ⟨taskID, s', v', free, ran, good, acts⟩
  · rw [ran]
    exact ⟨_, v, rfl, settled.left rfl settled.sound (fun _ _ => rfl) (.none (Or.inl acting))
      notIdle settled.unlocked⟩
  have ok := settled.sound.good.consistent.ok taskID
  obtain ⟨unused, isTask⟩ := ok.free (Or.inl free)
  have notRun : taskID ≠ v.runTask := by
    rintro rfl
    exact Bool.false_ne_true (acting.used.symm.trans unused)
  have notApart : ¬ (v.record taskID).Apart := fun apart => apart.nowhere .freeTask free
  have running : (v.record taskID).status.running = false := by
    rw [settled.sound.good.consistent.isRunTask isTask]
    exact decide_eq_false notRun
  have apart : (v'.record taskID).Apart := by
    rw [acts_here acts]
    exact ⟨fun _ => id, ok.unused_untimed unused, ok.unused_notReady unused, running⟩
  have runTask := acts_runTask acts
  have goes : (v'.record v'.runTask).Acting := by
    rw [runTask, acts_others acts notRun.symm]
    exact acting
  have sound := settled.sound.acts good acts
    (fun isIdle => absurd unused (by rw [isIdle, settled.sound.idle]; exact Bool.false_ne_true))
    (.unlink _)
  rw [ran]
  refine ⟨_, v', rfl, settled.left rfl sound (fun t creates => ?_)
    ⟨fun r isNext => ?_, fun r t isNext creates others => ?_, Or.inl goes, fun _ isNext => ?_⟩
    (runTask ▸ notIdle) (settled.still (acts_globals acts))⟩
  · refine acts_others acts fun here => ?_
    subst here
    exact notApart (settled.creations.apart creates.mono)
  · cases isNext
    refine ⟨inside, isTask, apart, ?_⟩
    rw [acts_here acts]
    exact unused
  · cases isNext
    cases creates
    exact notApart (settled.creations.apart others.mono)
  · cases isNext

/-- **`LOS_TaskCreateOnly`** makes the task that it has taken, or sets it free. -/
theorem Settled.createOnly {newTask : NewTask}
    (isRest : sys.rest v.runTask = some (.createOnly newTask taskID)) :
    Settled.Ends c (sys.goOn c (.createOnly newTask taskID)) := by
  obtain ⟨inside, isTask, apart, unused⟩ := settled.creations.fits _ _ isRest
  have creates : Creates sys.rest taskID := ⟨_, _, isRest, rfl⟩
  have alone := settled.creations.alone isRest rfl
  have notRun := settled.sound.notRun settled.creations creates
  have other : taskID ≠ c.idleTaskID := by
    rintro rfl
    exact Bool.false_ne_true (settled.sound.idle.symm.trans unused)
  obtain ⟨ret, s', v', ran, made, good, acts⟩ := settled.sound.good.createOnly apart.nowhere unused
    apart.notRunning isTask other inside newTask.memory
  have runTask := acts_runTask acts
  have goes : (v'.record v'.runTask).Acting := by
    rw [runTask, acts_others acts notRun.symm]
    exact acting
  have sound := settled.sound.acts good acts (fun isIdle => absurd isIdle other) (by
    split
    · exact .nowhere rfl apart.nowhere
    · exact .link _ fun _ => Node.noConfusion)
  have unlocked := settled.still (acts_globals acts)
  have others : ∀ t, t ≠ taskID → v'.record t = v.record t := fun t other => acts_others acts other
  simp only [System.goOn, ran, Option.bind_eq_bind, Option.bind_some]
  split
  case isFalse =>
    refine ⟨_, v', rfl, settled.left rfl sound (fun t creates' => others t ?_) (.none (Or.inl goes))
      (runTask ▸ notIdle) unlocked⟩
    rintro rfl
    exact alone (runTask ▸ creates')
  case isTrue isMade =>
    have begins := settled.begins notRun
    have isRest' : (sys.begins taskID).rest v.runTask = some (.createOnly newTask taskID) :=
      (Function.update_of_ne notRun.symm _ _).trans isRest
    have alone' := begins.creations.alone isRest' rfl
    refine ⟨_, v', rfl, begins.left rfl (sound.rest _) (fun t creates' => others t ?_)
      (.creates ?_ (runTask ▸ alone') goes) (runTask ▸ notIdle) unlocked⟩
    · rintro rfl
      exact alone' (runTask ▸ creates')
    · rw [Rest.Fits, acts_here acts, if_pos (made.mp isMade)]
      exact ⟨⟨apart.nowhere, apart.untimed, rfl, rfl⟩, rfl⟩

/-- **The rest of `LOS_TaskCreate`** finds the task as it was made. -/
theorem Settled.create (isRest : sys.rest v.runTask = some (.create taskID)) :
    Settled.Ends c (sys.goOn c (.create taskID)) := by
  obtain ⟨apart, used⟩ := settled.creations.fits _ _ isRest
  have notRun := settled.sound.notRun settled.creations ⟨_, _, isRest, rfl⟩
  have performs : Performs c v (some v.runTask) taskID (Record.enQueue c taskID) v.taskScheduled
      (losTaskCreate c sys.sched taskID) :=
    settled.sound.good.create apart.nowhere apart.untimed apart.notReady used
      fun same => notRun (Option.some.inj same).symm
  refine settled.performs acting notIdle performs
    (fun _ => settled.creations.alone isRest rfl) (fun _ => ?_) (.enQueue _)
    fun here => absurd here notRun
  rw [Record.enQueue_status]
  exact used

end GoOn

/-- **What is left of a call** keeps everything settled. -/
theorem Settled.goOn (settled : Settled c sys v) (may : sys.May c .goOn) :
    Settled.Ends c (sys.step c .goOn) := by
  rw [System.step, settled.sound.good.shows.runTask]
  cases isRest : sys.rest v.runTask with
  | none => exact ⟨sys, v, rfl, settled⟩
  | some r =>
      have notIdle : v.runTask ≠ c.idleTaskID := fun isIdle => by
        rw [isIdle, settled.idleRest] at isRest
        cases isRest
      have acting : r.schedules = false → (v.record v.runTask).Acting := fun notSchedule =>
        settled.acting may (by rw [isRest]; exact notSchedule)
      cases r with
      | schedule => exact settled.schedule notIdle fun _ isNext => by cases isNext
      | readSchedule event eventMask mode =>
          exact settled.schedule notIdle fun _ isNext => ⟨_, _, _, (Option.some.inj isNext).symm⟩
      | eventRead event eventMask mode =>
          exact settled.eventReadRest (acting rfl) notIdle event eventMask mode
      | delay tick => exact settled.delay (acting rfl) notIdle isRest
      | createTake newTask => exact settled.createTake (acting rfl) notIdle isRest
      | createOnly newTask taskID => exact settled.createOnly (acting rfl) notIdle isRest
      | create taskID => exact settled.create (acting rfl) notIdle isRest

/-! ## The interrupts -/

/-- **`LOS_EventWrite`**, of an interrupt. -/
theorem Settled.interruptWrite (settled : Settled c sys v) (event : Nat) (events : BitVec 32) :
    Settled.Ends c (sys.step c (.eventWrite event events)) := by
  obtain ⟨o, v', ran, sound, woken⟩ := settled.sound.eventWrite event events
  simp only [System.step, ran, Option.bind_eq_bind, Option.bind_some]
  refine ⟨_, v', rfl, settled.keeps sound rfl (fun t creates => ?_) woken.globals
    fun acting => settled.sound.woken_acting acting woken⟩
  exact woken.others t fun both => (settled.creations.apart creates).nowhere _ both.1

/-- **`LOS_Schedule`**, of an interrupt. -/
theorem Settled.interruptSchedule (settled : Settled c sys v) :
    Settled.Ends c (sys.step c .schedule) := by
  rw [System.step, losSchedule]
  split
  case isTrue switches =>
    have unlocked := of_decide_eq_true (Bool.and_eq_true_iff.mp switches).2
    rw [settled.sound.good.shows.taskLock] at unlocked
    exact ⟨_, _, rfl, settled.pend unlocked⟩
  case isFalse => exact ⟨_, v, rfl, settled⟩

/-- The idle task recycles the finished ones. -/
theorem Settled.recycle (settled : Settled c sys v) : Settled.Ends c (sys.step c .recycle) := by
  obtain ⟨s', v', ran, good, recycled⟩ := settled.sound.good.recycleFinished
  simp only [System.step, ran, Option.bind_eq_bind, Option.bind_some]
  exact ⟨_, v', rfl, settled.keeps (settled.sound.recycled good recycled) rfl
    (fun t creates => recycled.others t ((settled.creations.apart creates).nowhere _))
    recycled.globals fun acting => acting.congr (recycled.status v.runTask)⟩

/-! ## The clock -/

/-- The handler looks for what is due. -/
theorem Settled.scans (settled : Settled c sys v) {scan : Option UInt64}
    (later : ∀ time, scan = some time → sys.currTime ≤ time) :
    ∃ s' v' wakes, scanAll c sys.sched sys.swtmrs scan = some (s', sys.swtmrs, wakes) ∧
      Settled c { sys with sched := s', currTime := scan.getD sys.currTime } v' ∧
      ∀ t, v'.record t = scan.elim (v.record t) fun time => (v.record t).scan c time t := by
  cases scan with
  | none => exact ⟨sys.sched, v, false, rfl, settled, fun _ => rfl⟩
  | some time =>
      obtain ⟨s', v', wakes, ran, sound, scanned⟩ := settled.sound.scans (later time rfl)
      have stays : ∀ t, ¬ (v.record t).Timed → v'.record t = v.record t := fun t untimed => by
        rw [scanned.records, Record.scan, if_neg fun due => untimed due.1]
      have runTask : ¬ (v.record v.runTask).Timed := fun timed =>
        ((settled.sound.good.consistent.ok v.runTask).timed.mp timed).1 rfl
      exact ⟨s', v', wakes, ran, settled.keeps sound rfl
        (fun t creates => stays t (settled.creations.apart creates).untimed) scanned.globals
        (fun acting => by rw [stays _ runTask]; exact acting), scanned.records⟩

/-- The time slice of the running task. -/
theorem Settled.slice (settled : Settled c sys v) {currTime : UInt64}
    (later : sys.currTime ≤ currTime) :
    ∃ s' v', osTimeSliceUpdate c sys.sched currTime = some s' ∧
      Settled c { sys with sched := s', currTime } v' ∧
      ∀ t, (v'.record t).status = (v.record t).status := by
  obtain ⟨s', v', ran, sound, acts⟩ := settled.sound.slice later
  have same : ∀ t, (v'.record t).status = (v.record t).status :=
    acts_field (f := Record.status) acts rfl
  exact ⟨s', v', ran, settled.keeps sound rfl
    (fun t creates => acts_others acts (settled.sound.notRun settled.creations creates))
    (acts_globals acts) fun acting => acting.congr (same _), same⟩

/-- A later time is read. -/
theorem Settled.later (settled : Settled c sys v) {currTime : UInt64}
    (later : sys.currTime ≤ currTime) : Settled c { sys with currTime } v :=
  ⟨settled.sound.carries settled.sound.good settled.sound.scheduled settled.sound.idle later
    fun _ => .refl _, settled.creations, settled.idleRest, settled.goes, settled.unlocked,
    settled.delays⟩

/-- **`LOS_SchedTickHandler`** -/
theorem Settled.tick (settled : Settled c sys v) {scan : Option UInt64} {currTime : UInt64}
    (may : sys.May c (.tick scan currTime)) :
    ∃ sys' v', sys.step c (.tick scan currTime) = some sys' ∧ Settled c sys' v' ∧
      ∀ t, (v'.record t).status =
        (scan.elim (v.record t) fun time => (v.record t).scan c time t).status := by
  obtain ⟨⟨later, -⟩, scanTime⟩ := may
  have isScheduled := settled.sound.good.shows.taskScheduled.trans settled.sound.scheduled
  obtain ⟨s', v', wakes, ran, settled', records⟩ :=
    settled.scans fun time isScan => (scanTime time isScan).1
  have later' : scan.getD sys.currTime ≤ currTime := by
    cases scan with
    | none => exact later
    | some time => exact (scanTime time rfl).2
  simp only [System.step, losSchedTickHandler, isScheduled, Bool.not_true,
    if_neg Bool.false_ne_true]
  rw [ran]
  simp only [Option.bind_eq_bind, Option.bind_some]
  split
  case isTrue switches =>
    have unlocked : v'.taskLock = 0 := by
      have locks := of_decide_eq_true (Bool.and_eq_true_iff.mp switches).2
      rwa [settled'.sound.good.shows.taskLock] at locks
    exact ⟨_, _, rfl, (settled'.later later').pend unlocked,
      fun t => congrArg Record.status (records t)⟩
  case isFalse =>
    obtain ⟨s'', v'', ran', settled'', same⟩ := settled'.slice later'
    rw [ran']
    exact ⟨_, v'', rfl, settled'', fun t => (same t).trans (congrArg Record.status (records t))⟩

/-- **The switch** -/
theorem Settled.switch (settled : Settled c sys v) {currTime : UInt64}
    (may : sys.May c (.switch currTime)) :
    ∃ sys' v₁ v' newTask, sys.step c (.switch currTime) = some sys' ∧ Settled c sys' v' ∧
      Switched c v v₁ v' newTask currTime := by
  obtain ⟨pending, later⟩ := may
  rw [settled.sound.good.shows.switchPending] at pending
  obtain ⟨s', v₁, v', newTask, ran, switched, sound⟩ := settled.sound.switch later
  have unlocked : v'.taskLock = 0 := switched.taskLock.trans (settled.unlocked pending)
  refine ⟨_, v₁, v', newTask, by rw [System.step, ran]; rfl, ⟨sound,
    settled.creations.moves fun t creates => ?_, settled.idleRest, Or.inl switched.acting,
    fun _ => unlocked, fun _ _ => unlocked⟩, switched⟩
  have apart := settled.creations.apart creates
  have stays := switched.others t (settled.sound.notRun settled.creations creates)
  have notNew : t ≠ newTask := by
    rintro rfl
    have ready := switched.ready
    rw [stays, apart.notReady] at ready
    exact Bool.false_ne_true ready
  obtain ⟨running, same, stopped⟩ := switched.dispatched.others t notNew
  rw [same, stopped (Nat.ne_of_lt (settled.sound.isTask settled.creations creates)), stays,
    ← apart.notRunning]
  rfl

/-! ## The runs -/

/-- **Every step runs**, and keeps everything settled. -/
theorem Settled.step (settled : Settled c sys v) {action : Action} (may : sys.May c action) :
    Settled.Ends c (sys.step c action) := by
  cases action with
  | call taskCall => exact settled.call may
  | goOn => exact settled.goOn may
  | eventWrite event events => exact settled.interruptWrite event events
  | eventClear event eventMask => exact ⟨_, v, rfl, settled.fewer (below_clear _ eventMask)⟩
  | schedule => exact settled.interruptSchedule
  | recycle => exact settled.recycle
  | tick scan currTime =>
      obtain ⟨sys', v', ran, settled', -⟩ := settled.tick may
      exact ⟨sys', v', ran, settled'⟩
  | switch currTime =>
      obtain ⟨sys', -, v', -, ran, settled', -⟩ := settled.switch may
      exact ⟨sys', v', ran, settled'⟩

/-- **Every run goes on**, and keeps everything settled. -/
theorem Settled.run (settled : Settled c sys v) {actions : List Action}
    (may : sys.MayAll c actions) : Settled.Ends c (sys.run c actions) := by
  induction actions generalizing sys v with
  | nil => exact ⟨sys, v, rfl, settled⟩
  | cons action rest ih =>
      obtain ⟨sys', v', ran, settled'⟩ : Settled.Ends c (sys.step c action) :=
        settled.step may.1
      obtain ⟨sys'', v'', ranRest, settled''⟩ := ih settled' (may.2 sys' ran)
      refine ⟨sys'', v'', ?_, settled''⟩
      rw [System.run, List.foldlM_cons, ran]
      exact ranRest

/-- **`OsSchedStart`**, when no task has run yet, none waits for an event, and no call is left. -/
theorem Settled.start {s : Sched} (good : Good c s v none) (noTask : v.runTask = c.taskMaxNum)
    (idleUsed : (v.record c.idleTaskID).status.unused = false) {currTime : UInt64}
    (times : ∀ taskID, (v.record taskID).tcb.startTime ≤ currTime)
    (noReaders : ∀ event, v.queue (.eventList event) = []) (uwEventID : Nat → BitVec 32)
    {swtmrs : SortLink (Option Nat)} (noSwtmr : losListEmpty swtmrs.links none = true)
    (notPending : v.switchPending = false) :
    ∃ s' v', osSchedStart c s currTime = some s' ∧
      Settled c ⟨s', uwEventID, swtmrs, fun _ => none, currTime⟩ v' := by
  obtain ⟨s', v', newTask, ran, sound, dispatched, ready, globals⟩ :=
    Sound.start good noTask idleUsed times noReaders uwEventID noSwtmr fun _ => none
  have pending : v'.switchPending = false :=
    (congrArg Globals.switchPending globals).trans notPending
  obtain ⟨notPend, notDelay, notSuspend, used, -⟩ := (good.consistent.ok newTask).flags.ready ready
  refine ⟨s', v', ran, sound, ⟨fun _ _ isRest => ?_, fun _ _ _ _ _ isRest => ?_⟩, rfl, Or.inl ?_,
    fun isPending => absurd (pending.symm.trans isPending) Bool.false_ne_true, fun _ isRest => ?_⟩
  · cases isRest
  · cases isRest
  · rw [dispatched.runTask, dispatched.here]
    constructor <;> rwa [Record.run_status]
  · cases isRest

end Calls

end EinkLiteOS.Kernel
