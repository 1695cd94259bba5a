/-
# Kernel.SchedScan -- the tick

`OsSchedScanTimerList` takes the tasks whose time has come from the front of the sort link and
wakes them; it stops at the first one that is early, or when the link is empty.  So it wakes
every task that is due, whatever the order of the others, and no other task (`Good.scan`).
-/
import EinkLiteOS.Kernel.SchedSteps
import Mathlib.Data.List.Perm.Subperm

namespace EinkLiteOS.Kernel

open EinkLiteOS.Theory EinkLiteOS.Theory.RingList

set_option autoImplicit false

namespace Record

/-- The time of the task has come. -/
def Due (currTime : UInt64) (r : Record) : Prop := r.Timed ∧ r.deadline ≤ currTime

instance (currTime : UInt64) (r : Record) : Decidable (r.Due currTime) :=
  inferInstanceAs (Decidable (r.deadline ≠ osSortLinkInvalidTime ∧ r.deadline ≤ currTime))

/-- `OsSchedScanTimerList`, for one task. -/
def scan (c : KernelConfig) (currTime : UInt64) (taskID : Nat) (r : Record) : Record :=
  if r.Due currTime then r.expire c taskID else r

/-- `OsTimeSliceUpdate`, of the running task. -/
def slice (c : KernelConfig) (currTime : UInt64) (taskID : Nat) (r : Record) : Record :=
  r.setTcb fun tcb => { tcb with
    timeSlice :=
      if taskID ≠ c.idleTaskID then tcb.timeSlice - (currTime - tcb.startTime).toUInt32.toInt32
      else tcb.timeSlice
    startTime := currTime }

theorem expire_untimed (c : KernelConfig) (taskID : Nat) (r : Record) :
    ¬ (r.expire c taskID).Timed := by
  rw [expire, Timed]
  split
  · rw [enQueue_deadline, timeOut_deadline]
    exact not_not_intro rfl
  · rw [timeOut_deadline]
    exact not_not_intro rfl

end Record

/-- The tasks of the one view, scanned, are those of the other. -/
structure Scanned (c : KernelConfig) (currTime : UInt64) (v v' : View) : Prop where
  records : ∀ taskID, v'.record taskID = (v.record taskID).scan c currTime taskID
  globals : v'.globals = v.globals

/-- A task gets ready when the link is scanned. -/
def View.ScanWakes (v : View) (currTime : UInt64) : Prop :=
  ∃ taskID, (v.record taskID).Due currTime ∧ (v.record taskID).status.suspend = false

section Scan

variable {c : KernelConfig} {s : Sched} {v v' v'' : View} {taskID : Nat} {currTime : UInt64}
  {current : Option Nat}

/-- Nothing is due. -/
theorem Scanned.none (early : ∀ taskID, ¬ (v.record taskID).Due currTime) :
    Scanned c currTime v v where
  records taskID := (if_neg (early taskID)).symm
  globals := rfl

/-- One task is woken before the others. -/
theorem Scanned.cons (due : (v.record taskID).Due currTime)
    (acts : Acts v v' taskID (Record.expire c taskID)) (scanned : Scanned c currTime v' v'') :
    Scanned c currTime v v'' where
  records other := by
    rw [scanned.records]
    by_cases here : other = taskID
    · subst here
      have done : ¬ ((v.record other).expire c other).Due currTime :=
        fun again => (v.record other).expire_untimed c other again.1
      rw [acts_here acts, Record.scan, if_neg done, Record.scan, if_pos due]
    · rw [acts_others acts here]
  globals := scanned.globals.trans (acts_globals acts)

theorem View.scanWakes_cons (due : (v.record taskID).Due currTime)
    (acts : Acts v v' taskID (Record.expire c taskID)) :
    v.ScanWakes currTime ↔
      (v.record taskID).status.suspend = false ∨ v'.ScanWakes currTime := by
  constructor
  · rintro ⟨other, isDue, free⟩
    by_cases here : other = taskID
    · exact Or.inl (here ▸ free)
    · refine Or.inr ⟨other, ?_⟩
      rw [acts_others acts here]
      exact ⟨isDue, free⟩
  · rintro (free | ⟨other, isDue, free⟩)
    · exact ⟨taskID, due, free⟩
    · refine ⟨other, ?_⟩
      have different : other ≠ taskID := by
        rintro rfl
        rw [acts_here acts] at isDue
        exact (v.record other).expire_untimed c other isDue.1
      rw [acts_others acts different] at isDue free
      exact ⟨isDue, free⟩

/-- **A task that leaves the link is woken.** -/
theorem Good.expire (good : Good c s v current) (timed : taskID ∈ v.timed) :
    ∃ s₁ s₂ v', s.deleteNodeSortLink taskID = some s₁ ∧
      (s₁.task taskID).taskStatus.wakesUp = !(v.record taskID).status.suspend ∧
      osSchedWakePendTimeTask c s₁ taskID = some s₂ ∧ Good c s₂ v' current ∧
      Acts v v' taskID (Record.expire c taskID) := by
  have ok := good.consistent.ok taskID
  have isTimed : (v.record taskID).Timed := good.shows.timed_iff.mp timed
  obtain ⟨-, waits, blocked⟩ := ok.waits isTimed
  have start : At v taskID s (v.record taskID) := Layout.At.start good.shows taskID
  obtain ⟨s₁, deleted, here⟩ := gives_deleteNodeSortLink start isTimed
  have gives := gives_osSchedWakePendTimeTask here ok isTimed
  obtain ⟨s₂, v', woken, good', acts⟩ :=
    good.consistent.keeps gives (by simp [Record.expire]; split <;> simp [TaskStatus.readied])
      (ok.expire isTimed)
  refine ⟨s₁, s₂, v', deleted, ?_, woken, good', acts.congr rfl⟩
  rw [at_tcb here, TaskStatus.wakesUp]
  show (((v.record taskID).status.pend || (v.record taskID).status.delay) && _) = _
  rw [waits, Bool.true_and]
  rfl

/-- A link from which a task has gone is shorter. -/
theorem Good.timed_less (good : Good c s v current) {s' : Sched} (good' : Good c s' v' current)
    (timed : taskID ∈ v.timed) (acts : Acts v v' taskID (Record.expire c taskID)) :
    v'.timed.length < v.timed.length := by
  have inside : v'.timed ⊆ v.timed.erase taskID := by
    intro other member
    have isTimed : (v'.record other).Timed := good'.shows.timed_iff.mp member
    have different : other ≠ taskID := by
      rintro rfl
      rw [acts_here acts] at isTimed
      exact (v.record other).expire_untimed c other isTimed
    rw [acts_others acts different] at isTimed
    exact (List.mem_erase_of_ne different).mpr (good.shows.timed_iff.mpr isTimed)
  have least := (List.Nodup.subperm good'.shows.timed_nodup inside).length_le
  rw [List.length_erase_of_mem timed] at least
  have some := List.length_pos_of_mem timed
  omega

/-- **The loop of `OsSchedScanTimerList`** wakes the tasks that are due. -/
theorem Good.scanLoop (good : Good c s v current) (currTime : UInt64) (notEmpty : v.timed ≠ []) {fuel : Nat}
    (enough : v.timed.length ≤ fuel) (needSchedule : Bool) :
    ∃ s' v' wakes, scanTimers c currTime fuel s needSchedule = some (s', needSchedule || wakes) ∧
      Good c s' v' current ∧ Scanned c currTime v v' ∧
      (wakes = true ↔ v.ScanWakes currTime) := by
  induction fuel generalizing s v needSchedule with
  | zero => exact absurd (List.length_eq_zero_iff.mp (Nat.le_zero.mp enough)) notEmpty
  | succ fuel ih =>
      obtain ⟨first, rest, timed⟩ := List.exists_cons_of_ne_nil notEmpty
      have inList : first ∈ v.timed := timed ▸ List.mem_cons_self
      have sorted := good.shows.timed_sorted
      have next := good.shows.timed.next
      rw [timed] at next sorted
      rw [scanTimers, next, good.shows.timed.times]
      simp only [firstOf, List.map_cons, List.headD_cons, Option.bind_eq_bind, Option.bind_some]
      by_cases early : linkDeadline v.deadline (some first) ≤ currTime
      · have due : (v.record first).Due currTime := ⟨good.shows.timed_iff.mp inList, early⟩
        obtain ⟨s₁, s₂, v₁, deleted, wakesUp, woken, good₁, acts⟩ := good.expire inList
        have less := good.timed_less good₁ inList acts
        have empty := good₁.shows.timed.empty
        rw [List.map_eq_nil_iff] at empty
        have wakes := View.scanWakes_cons due acts
        simp only [if_pos early, deleted, woken, wakesUp, Option.bind_some]
        by_cases none : v₁.timed = []
        · rw [if_pos (empty.mpr none)]
          have nothing : ∀ other, ¬ (v₁.record other).Due currTime := fun other isDue => by
            have member := good₁.shows.timed_iff.mpr isDue.1
            rw [none] at member
            exact List.not_mem_nil member
          refine ⟨s₂, v₁, _, rfl, good₁, Scanned.cons due acts (Scanned.none nothing), ?_⟩
          rw [wakes, Bool.not_eq_true']
          refine ⟨Or.inl, ?_⟩
          rintro (first | ⟨other, isDue, -⟩)
          · exact first
          · exact absurd isDue (nothing other)
        · rw [if_neg fun isEmpty => none (empty.mp isEmpty)]
          obtain ⟨s', v', more, scanned, good', scan, moreWakes⟩ := ih good₁ none (by omega)
            (needSchedule || !(v.record first).status.suspend)
          refine ⟨s', v', !(v.record first).status.suspend || more, ?_, good',
            Scanned.cons due acts scan, ?_⟩
          · rw [scanned, Bool.or_assoc]
          · rw [Bool.or_eq_true, moreWakes, Bool.not_eq_true', wakes]
      · have nothing : ∀ other, ¬ (v.record other).Due currTime := fun other isDue => by
          have member := good.shows.timed_iff.mpr isDue.1
          rw [timed] at member
          rcases List.mem_cons.mp member with rfl | behind
          · exact early isDue.2
          · have before := (List.pairwise_cons.mp sorted).1 other behind
            exact early (UInt64.le_trans before isDue.2)
        refine ⟨s, v, false, ?_, good, Scanned.none nothing, ?_⟩
        · rw [if_neg early, Bool.or_false]
          rfl
        · refine iff_of_false Bool.false_ne_true ?_
          rintro ⟨other, isDue, -⟩
          exact nothing other isDue

/-- Tasks with a deadline are tasks. -/
theorem Good.timed_length (good : Good c s v current) : v.timed.length ≤ c.taskMaxNum := by
  have inRange : v.timed ⊆ List.range c.taskMaxNum := by
    intro t member
    have ok := good.consistent.ok t
    have isTimed : (v.record t).Timed := good.shows.timed_iff.mp member
    exact List.mem_range.mpr (ok.inside (ok.flags.used (ok.waits isTimed).2.2)).2
  have least := (List.Nodup.subperm good.shows.timed_nodup inRange).length_le
  rwa [List.length_range] at least

/-- **`OsSchedScanTimerList`** runs to its end, wakes the tasks whose time has come, changes no
other task, and reports whether one of them got ready. -/
theorem Good.scan (good : Good c s v current) (currTime : UInt64) :
    ∃ s' v' wakes, osSchedScanTimerList c s currTime = some (s', wakes) ∧
      Good c s' v' current ∧ Scanned c currTime v v' ∧
      (wakes = true ↔ v.ScanWakes currTime) := by
  have empty := good.shows.timed.empty
  rw [List.map_eq_nil_iff] at empty
  rw [osSchedScanTimerList]
  by_cases none : v.timed = []
  · rw [if_pos (empty.mpr none)]
    have nothing : ∀ other, ¬ (v.record other).Due currTime := fun other isDue => by
      have member := good.shows.timed_iff.mpr isDue.1
      rw [none] at member
      exact List.not_mem_nil member
    refine ⟨s, v, false, rfl, good, Scanned.none nothing, ?_⟩
    refine iff_of_false Bool.false_ne_true ?_
    rintro ⟨other, isDue, -⟩
    exact nothing other isDue
  · rw [if_neg fun isEmpty => none (empty.mp isEmpty)]
    obtain ⟨s', v', wakes, scanned, rest⟩ := good.scanLoop currTime none
      (Nat.le_succ_of_le good.timed_length) false
    exact ⟨s', v', wakes, by rw [scanned, Bool.false_or], rest⟩

end Scan

/-! ## The time slice -/

section Slice

variable {c : KernelConfig} {s : Sched} {v : View} {currTime : UInt64} {taskID : Nat} {r : Record}
  {current : Prop}

/-- Other times of a task. -/
theorem Ok.slice (ok : Ok c taskID r current) : Ok c taskID (r.slice c currTime taskID) current :=
  ⟨ok.flags, ok.ready, ok.pend, ok.free, ok.heads, ok.timed, ok.inside⟩

/-- **`OsTimeSliceUpdate`**, when the clock has not gone back. -/
theorem Good.slice {current : Option Nat} (good : Good c s v current)
    (forward : (v.record v.runTask).tcb.startTime ≤ currTime) :
    Keeps c v current v.runTask (osTimeSliceUpdate c s currTime)
      ((v.record v.runTask).slice c currTime v.runTask) := by
  refine good.consistent.keeps ?_ rfl (good.consistent.ok v.runTask).slice
  have start : At v v.runTask s (v.record v.runTask) := Layout.At.start good.shows v.runTask
  have tcb := at_tcb start
  simp only [osTimeSliceUpdate, good.shows.runTask, tcb]
  rw [if_neg (UInt64.not_lt.mpr forward)]
  exact ⟨_, rfl, at_setTask start _⟩

end Slice

end EinkLiteOS.Kernel
