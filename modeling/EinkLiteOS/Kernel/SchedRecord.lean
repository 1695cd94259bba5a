/-
# Kernel.SchedRecord -- what the scheduler does to one task

The record of a task is its control block, the lists it stands in, and its deadline.  Every
function of the scheduler that works on one task changes the record of this task and no other.
What the change is, is said here for the functions the others are made of.
-/
import EinkLiteOS.Kernel.SchedView
import EinkLiteOS.Theory.LocalSteps

namespace EinkLiteOS.Kernel

open EinkLiteOS.Theory EinkLiteOS.Theory.RingList

set_option autoImplicit false

/-- What is recorded of a task. -/
@[ext]
structure Record where
  tcb : LosTaskCB
  stands : Node → Prop
  deadline : UInt64

/-- What is not recorded of a task. -/
structure Globals where
  runTask : Nat
  taskLock : UInt16
  taskScheduled : Bool
  switchPending : Bool

/-- What is around the record of one task: `others` are the lists without it. -/
structure Frame where
  globals : Globals
  others : Node → List Nat

/-- The record of a task in a view. -/
def View.record (v : View) (taskID : Nat) : Record where
  tcb := v.task taskID
  stands h := taskID ∈ v.queue h
  deadline := v.deadline taskID

def View.globals (v : View) : Globals :=
  ⟨v.runTask, v.taskLock, v.taskScheduled, v.switchPending⟩

def View.frame (v : View) (taskID : Nat) : Frame :=
  ⟨v.globals, fun h => (v.queue h).filter (· ≠ taskID)⟩

/-- The scheduler, task by task. -/
abbrev layout : Layout Sched View Nat Record Frame := ⟨Shows, View.record, View.frame⟩

/-- From one view to the other, the record of one task changes. -/
abbrev Acts (v v' : View) (taskID : Nat) (change : Record → Record) : Prop :=
  layout.Changes v v' taskID change

/-- The state shows the view, but the record of the task is another one. -/
abbrev At (v : View) (taskID : Nat) (s : Sched) (r : Record) : Prop := layout.At v taskID s r

/-- A function gives such a state. -/
abbrev Gives (v : View) (taskID : Nat) (result : Option Sched) (r : Record) : Prop :=
  layout.Gives v taskID result r

/-! ## Changes of one record -/

/-- The time slice a task goes into its queue with. -/
def LosTaskCB.sliced (c : KernelConfig) (tcb : LosTaskCB) : LosTaskCB :=
  if c.timeSliceMin < tcb.timeSlice then tcb else { tcb with timeSlice := c.schedTimeSlices }

namespace Record

abbrev status (r : Record) : TaskStatus := r.tcb.taskStatus

/-- The task waits for a time. -/
def Timed (r : Record) : Prop := r.deadline ≠ osSortLinkInvalidTime

/-- The task is in its queue. -/
def Queued (r : Record) : Prop :=
  r.tcb.priority < osPriorityQueueNum ∧ r.stands (.priQueue r.tcb.priority)

def setTcb (tcb : LosTaskCB → LosTaskCB) (r : Record) : Record := { r with tcb := tcb r.tcb }

def setStatus (status : TaskStatus → TaskStatus) (r : Record) : Record :=
  r.setTcb fun tcb => { tcb with taskStatus := status tcb.taskStatus }

def unlink (r : Record) : Record := { r with stands := fun _ => False }

def link (h : Node) (r : Record) : Record := { r with stands := fun k => r.stands k ∨ k = h }

def time (responseTime : UInt64) (r : Record) : Record := { r with deadline := responseTime }

def untime (r : Record) : Record := r.time osSortLinkInvalidTime

/-- `OsSchedTaskEnQueue` -/
def enQueue (c : KernelConfig) (taskID : Nat) (r : Record) : Record :=
  setStatus TaskStatus.readied
    (if taskID ≠ c.idleTaskID then
      link (.priQueue r.tcb.priority) (r.setTcb (LosTaskCB.sliced c))
    else r)

/-- `OsSchedTaskDeQueue` -/
def deQueue (c : KernelConfig) (taskID : Nat) (r : Record) : Record :=
  if r.status.ready then
    setStatus ({ · with ready := false }) (if taskID ≠ c.idleTaskID then r.unlink else r)
  else r

section Fields

variable (r : Record) (tcb : LosTaskCB → LosTaskCB) (status : TaskStatus → TaskStatus)
  (responseTime : UInt64) (h : Node)

@[simp] theorem setTcb_tcb : (r.setTcb tcb).tcb = tcb r.tcb := rfl
@[simp] theorem setTcb_stands : (r.setTcb tcb).stands = r.stands := rfl
@[simp] theorem setTcb_deadline : (r.setTcb tcb).deadline = r.deadline := rfl
@[simp] theorem setStatus_tcb :
    (r.setStatus status).tcb = { r.tcb with taskStatus := status r.tcb.taskStatus } := rfl
@[simp] theorem setStatus_stands : (r.setStatus status).stands = r.stands := rfl
@[simp] theorem setStatus_deadline : (r.setStatus status).deadline = r.deadline := rfl
@[simp] theorem setTcb_status : (r.setTcb tcb).status = (tcb r.tcb).taskStatus := rfl
@[simp] theorem setStatus_status : (r.setStatus status).status = status r.status := rfl
@[simp] theorem unlink_status : r.unlink.status = r.status := rfl
@[simp] theorem link_status : (r.link h).status = r.status := rfl
@[simp] theorem time_status : (r.time responseTime).status = r.status := rfl
@[simp] theorem untime_status : r.untime.status = r.status := rfl
@[simp] theorem unlink_tcb : r.unlink.tcb = r.tcb := rfl
@[simp] theorem unlink_stands : r.unlink.stands h = False := rfl
@[simp] theorem unlink_deadline : r.unlink.deadline = r.deadline := rfl
@[simp] theorem link_tcb : (r.link h).tcb = r.tcb := rfl
@[simp] theorem link_stands (k : Node) : (r.link h).stands k = (r.stands k ∨ k = h) := rfl
@[simp] theorem link_deadline : (r.link h).deadline = r.deadline := rfl
@[simp] theorem time_tcb : (r.time responseTime).tcb = r.tcb := rfl
@[simp] theorem time_stands : (r.time responseTime).stands = r.stands := rfl
@[simp] theorem time_deadline : (r.time responseTime).deadline = responseTime := rfl
@[simp] theorem untime_tcb : r.untime.tcb = r.tcb := rfl
@[simp] theorem untime_stands : r.untime.stands = r.stands := rfl
@[simp] theorem untime_deadline : r.untime.deadline = osSortLinkInvalidTime := rfl

end Fields

end Record

/-! ## The views -/

section Views

variable {c : KernelConfig} {v v' : View} {taskID : Nat} {change : Record → Record}

theorem acts_here (acts : Acts v v' taskID change) :
    v'.record taskID = change (v.record taskID) := acts.here

theorem acts_others (acts : Acts v v' taskID change) {other : Nat} (different : other ≠ taskID) :
    v'.record other = v.record other := acts.others other different

/-- What the change keeps is the same for all tasks. -/
theorem acts_field {α : Type} (acts : Acts v v' taskID change) {f : Record → α}
    (keeps : f (change (v.record taskID)) = f (v.record taskID)) (other : Nat) :
    f (v'.record other) = f (v.record other) := by
  by_cases here : other = taskID
  · subst here
    rw [acts_here acts, keeps]
  · rw [acts_others acts here]

theorem acts_globals (acts : Acts v v' taskID change) : v'.globals = v.globals :=
  congrArg Frame.globals acts.frame

theorem acts_runTask (acts : Acts v v' taskID change) : v'.runTask = v.runTask :=
  congrArg Globals.runTask (acts_globals acts)

/-- The other tasks keep their places. -/
theorem acts_queue (acts : Acts v v' taskID change) {h : Node} (after : taskID ∉ v'.queue h) :
    v'.queue h = (v.queue h).filter (· ≠ taskID) := by
  have others : (v'.queue h).filter (· ≠ taskID) = (v.queue h).filter (· ≠ taskID) :=
    congrFun (congrArg Frame.others acts.frame) h
  rw [← others, List.filter_eq_self.mpr]
  exact fun t member => by simpa using ne_of_mem_of_not_mem member after

/-- A list the task has left. -/
theorem acts_leaves (acts : Acts v v' taskID change) {h : Node} (nodup : (v.queue h).Nodup)
    {front back : List Nat} (tasks : v.queue h = front ++ taskID :: back)
    (after : taskID ∉ v'.queue h) : v'.queue h = front ++ back := by
  rw [tasks] at nodup
  obtain ⟨-, behind, apart⟩ := List.nodup_append.mp nodup
  rw [acts_queue acts after, tasks, List.filter_append, List.filter_cons_of_neg (by simp),
    List.filter_eq_self.mpr fun t member => ?_, List.filter_eq_self.mpr fun t member => ?_]
  · exact decide_eq_true (ne_of_mem_of_not_mem member (List.nodup_cons.mp behind).1)
  · exact decide_eq_true (apart t member taskID List.mem_cons_self)

theorem View.setTask_acts (v : View) (taskID : Nat) (tcb : LosTaskCB → LosTaskCB) :
    Acts v (v.setTask taskID tcb) taskID (Record.setTcb tcb) := by
  refine ⟨?_, fun other different => ?_, rfl⟩
  · simp only [View.record, View.setTask, Function.update_self, Record.setTcb]
  · simp only [View.record, View.setTask, Function.update_of_ne different]

theorem View.setStatus_acts (v : View) (taskID : Nat) (status : TaskStatus → TaskStatus) :
    Acts v (v.setStatus taskID status) taskID (Record.setStatus status) :=
  v.setTask_acts taskID _

theorem View.unlink_acts (v : View) (taskID : Nat) (nodup : ∀ h, (v.queue h).Nodup) :
    Acts v (v.unlink taskID) taskID Record.unlink := by
  refine ⟨?_, fun other different => ?_, ?_⟩
  · ext1 <;> try rfl
    funext h
    simp only [View.record, View.unlink, Record.unlink, (nodup h).mem_erase_iff, ne_eq,
      not_true_eq_false, false_and]
  · ext1 <;> try rfl
    funext h
    simp only [View.record, View.unlink, (nodup h).mem_erase_iff, ne_eq, different,
      not_false_eq_true, true_and]
  · simp only [View.frame, View.globals, View.unlink, (nodup _).erase_eq_filter,
      List.filter_filter, Frame.mk.injEq, true_and]
    funext h
    exact List.filter_congr fun other _ => by simp

/-- A task that is put into a list, at whichever place. -/
theorem View.link_acts (v : View) (taskID : Nat) (h : Node) {tasks : List Nat}
    (perm : tasks.Perm (taskID :: v.queue h))
    (order : tasks.filter (· ≠ taskID) = (v.queue h).filter (· ≠ taskID)) :
    Acts v { v with queue := Function.update v.queue h tasks } taskID (Record.link h) := by
  have member : ∀ other k, other ∈ Function.update v.queue h tasks k ↔
      other ∈ v.queue k ∨ (other = taskID ∧ k = h) := by
    intro other k
    by_cases same : k = h
    · subst same
      rw [Function.update_self, perm.mem_iff, List.mem_cons]
      tauto
    · rw [Function.update_of_ne same]
      tauto
  refine ⟨?_, fun other different => ?_, ?_⟩
  · ext1 <;> try rfl
    funext k
    simp only [View.record, Record.link, member, true_and]
  · ext1 <;> try rfl
    funext k
    simp only [View.record, member, different, false_and, or_false]
  · simp only [View.frame, View.globals, Frame.mk.injEq, true_and]
    funext k
    by_cases same : k = h
    · subst same
      rw [Function.update_self, order]
    · rw [Function.update_of_ne same]

theorem View.link_head_acts (v : View) (taskID : Nat) (h : Node) :
    Acts v { v with queue := Function.update v.queue h (taskID :: v.queue h) } taskID
      (Record.link h) :=
  v.link_acts taskID h (List.Perm.refl _) (by simp)

theorem View.link_tail_acts (v : View) (taskID : Nat) (h : Node) :
    Acts v { v with queue := Function.update v.queue h (v.queue h ++ [taskID]) } taskID
      (Record.link h) :=
  v.link_acts taskID h (List.perm_append_singleton taskID _) (by simp)

theorem View.untime_acts (v : View) (taskID : Nat) :
    Acts v (v.untime taskID) taskID Record.untime := by
  refine ⟨?_, fun other different => ?_, rfl⟩
  · ext1 <;> try rfl
    simp [View.record, View.untime, Record.untime]
  · simp only [View.record, View.untime, Function.update_of_ne different]

theorem View.time_acts (v : View) (taskID : Nat) (responseTime : UInt64) :
    Acts v (v.time taskID responseTime) taskID (Record.time responseTime) := by
  refine ⟨?_, fun other different => ?_, rfl⟩
  · ext1 <;> try rfl
    simp [View.record, View.time, Record.time]
  · simp only [View.record, View.time, Function.update_of_ne different]

theorem View.enQueue_acts (c : KernelConfig) (v : View) (taskID : Nat) :
    Acts v (v.enQueue c taskID) taskID (Record.enQueue c taskID) := by
  simp only [View.enQueue]
  split
  case isTrue isIdle =>
    refine (v.setStatus_acts taskID TaskStatus.readied).congr ?_
    simp only [Record.enQueue, isIdle, ne_eq, not_true_eq_false, if_false]
  case isFalse notIdle =>
    split
    case isTrue left =>
      have acts := (v.setStatus_acts taskID TaskStatus.readied).trans
        (View.link_head_acts (v.setStatus taskID TaskStatus.readied) taskID
          (.priQueue (v.task taskID).priority))
      refine acts.congr ?_
      have sliced : LosTaskCB.sliced c (v.task taskID) = v.task taskID := if_pos left
      simp [Record.enQueue, notIdle, View.record, Record.link, Record.setStatus, Record.setTcb,
        sliced]
    case isFalse spent =>
      have acts := ((v.setTask_acts taskID ({ · with timeSlice := c.schedTimeSlices })).trans
        (View.setStatus_acts _ taskID TaskStatus.readied)).trans
        (View.link_tail_acts ((v.setTask taskID ({ · with timeSlice := c.schedTimeSlices })).setStatus
          taskID TaskStatus.readied) taskID (.priQueue (v.task taskID).priority))
      refine acts.congr ?_
      have sliced : LosTaskCB.sliced c (v.task taskID) =
          { v.task taskID with timeSlice := c.schedTimeSlices } := if_neg spent
      simp [Record.enQueue, notIdle, View.record, Record.link, Record.setStatus, Record.setTcb,
        sliced]

theorem View.deQueue_acts (nodup : ∀ h, (v.queue h).Nodup) :
    Acts v (v.deQueue c taskID) taskID (Record.deQueue c taskID) := by
  simp only [View.deQueue]
  by_cases ready : (v.task taskID).taskStatus.ready = true
  · rw [if_pos ready]
    have isReady : (v.record taskID).status.ready = true := ready
    by_cases isIdle : taskID = c.idleTaskID
    · rw [if_pos isIdle]
      refine (v.setStatus_acts taskID ({ · with ready := false })).congr ?_
      rw [Record.deQueue, if_pos isReady, if_neg (not_not_intro isIdle)]
    · rw [if_neg isIdle]
      refine ((v.unlink_acts taskID nodup).trans (View.setStatus_acts _ taskID
        ({ · with ready := false }))).congr ?_
      rw [Record.deQueue, if_pos isReady, if_pos isIdle]
  · rw [if_neg ready]
    refine (Layout.Changes.refl v taskID).congr ?_
    exact (if_neg (show ¬ (v.record taskID).status.ready = true from ready)).symm

end Views

/-! ## The functions -/

section Functions

variable {c : KernelConfig} {s : Sched} {v : View} {taskID : Nat} {r : Record} {h : Node}

theorem Shows.nodup (shows : Shows s v) (h : Node) : (v.queue h).Nodup := shows.queues.nodup h

theorem Node.Waits.notQueue (waits : h.Waits) (priority : Nat) : h ≠ .priQueue priority := by
  rintro rfl
  exact waits

/-- The control block that the code reads. -/
theorem at_tcb (here : At v taskID s r) : s.task taskID = r.tcb := by
  obtain ⟨v', shows, changes⟩ := here
  rw [Shows.task shows]
  exact congrArg Record.tcb changes.here

theorem Shows.globals (shows : Shows s v) :
    (⟨s.runTask, s.taskLock, s.taskScheduled, s.switchPending⟩ : Globals) = v.globals := by
  rw [shows.runTask, shows.taskLock, shows.taskScheduled, shows.switchPending]
  rfl

theorem at_globals (here : At v taskID s r) :
    (⟨s.runTask, s.taskLock, s.taskScheduled, s.switchPending⟩ : Globals) = v.globals := by
  obtain ⟨v', shows, changes⟩ := here
  exact (Shows.globals shows).trans (acts_globals changes)

theorem at_runTask (here : At v taskID s r) : s.runTask = v.runTask :=
  congrArg Globals.runTask (at_globals here)

theorem at_taskLock (here : At v taskID s r) : s.taskLock = v.taskLock :=
  congrArg Globals.taskLock (at_globals here)

theorem at_taskScheduled (here : At v taskID s r) : s.taskScheduled = v.taskScheduled :=
  congrArg Globals.taskScheduled (at_globals here)

theorem at_setTask (here : At v taskID s r) (tcb : LosTaskCB → LosTaskCB) :
    At v taskID (s.setTask taskID tcb) (r.setTcb tcb) :=
  here.step fun v' shows => ⟨_, Shows.setTask shows taskID tcb, v'.setTask_acts taskID tcb⟩

theorem at_setStatus (here : At v taskID s r) (status : TaskStatus → TaskStatus) :
    At v taskID (s.setStatus taskID status) (r.setStatus status) :=
  at_setTask here _

/-- A task is taken out of a list that is not a queue of the scheduler. -/
theorem gives_listDelete (here : At v taskID s r) (notQueue : ∀ priority, h ≠ .priQueue priority)
    (stands : r.stands h) : Gives v taskID (s.listDelete taskID) r.unlink := by
  refine here.gives fun v' (shows : Shows s v') record => ?_
  rw [← record] at stands
  obtain ⟨s', deleted, shows'⟩ := shows.unlink notQueue stands
  exact ⟨s', _, deleted, shows', v'.unlink_acts taskID shows.nodup⟩

theorem gives_listAdd (here : At v taskID s r) (isHead : h.IsHead)
    (notQueue : ∀ priority, h ≠ .priQueue priority) (nowhere : ∀ k, ¬ r.stands k) :
    Gives v taskID (s.listAdd h taskID) (r.link h) := by
  refine here.gives fun v' (shows : Shows s v') record => ?_
  rw [← record] at nowhere
  obtain ⟨s', added, shows'⟩ := shows.add isHead notQueue fun k _ => nowhere k
  exact ⟨s', _, added, shows', v'.link_head_acts taskID h⟩

theorem gives_listTailInsert (here : At v taskID s r) (isHead : h.IsHead)
    (notQueue : ∀ priority, h ≠ .priQueue priority) (nowhere : ∀ k, ¬ r.stands k) :
    Gives v taskID (s.listTailInsert h taskID) (r.link h) := by
  refine here.gives fun v' (shows : Shows s v') record => ?_
  rw [← record] at nowhere
  obtain ⟨s', added, shows'⟩ := shows.tailInsert isHead notQueue fun k _ => nowhere k
  exact ⟨s', _, added, shows', v'.link_tail_acts taskID h⟩

theorem gives_deleteSortLink (here : At v taskID s r) :
    Gives v taskID (s.deleteSortLink taskID) r.untime := by
  refine here.gives fun v' (shows : Shows s v') _ => ?_
  obtain ⟨s', deleted, shows'⟩ := shows.untime taskID
  exact ⟨s', _, deleted, shows', v'.untime_acts taskID⟩

theorem gives_deleteNodeSortLink (here : At v taskID s r) (timed : r.Timed) :
    Gives v taskID (s.deleteNodeSortLink taskID) r.untime := by
  refine here.gives fun v' (shows : Shows s v') record => ?_
  rw [← record] at timed
  obtain ⟨s', deleted, shows'⟩ := shows.untimeNode (shows.timed_iff.mpr timed)
  exact ⟨s', _, deleted, shows', v'.untime_acts taskID⟩

theorem gives_osSchedTaskEnQueue (here : At v taskID s r) (notReady : r.status.ready = false)
    (inside : r.tcb.priority < osPriorityQueueNum) (nowhere : ∀ k, ¬ r.stands k) :
    Gives v taskID (osSchedTaskEnQueue c s taskID) (r.enQueue c taskID) := by
  refine here.gives fun v' (shows : Shows s v') record => ?_
  rw [← record] at notReady inside nowhere
  obtain ⟨s', queued, shows'⟩ := shows.enQueue (c := c) notReady fun _ =>
    ⟨inside, fun k _ => nowhere k⟩
  exact ⟨s', _, queued, shows', View.enQueue_acts c v' taskID⟩

theorem gives_osSchedTaskDeQueue (here : At v taskID s r)
    (queued : r.status.ready = true → taskID ≠ c.idleTaskID → r.Queued) :
    Gives v taskID (osSchedTaskDeQueue c s taskID) (r.deQueue c taskID) := by
  refine here.gives fun v' (shows : Shows s v') record => ?_
  rw [← record] at queued
  obtain ⟨s', dequeued, shows'⟩ := shows.deQueue (c := c) fun ready notIdle =>
    ⟨(queued ready notIdle).1, (queued ready notIdle).2⟩
  exact ⟨s', _, dequeued, shows', View.deQueue_acts shows.nodup⟩

end Functions

end EinkLiteOS.Kernel
