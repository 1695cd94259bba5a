/-
# Kernel.TaskLists -- the lists of tasks

Every list of tasks, the queues of the scheduler, the lists where tasks wait, the free and the
finished ones, goes through the `pendList` of the task control blocks.  `Queues` says which
tasks stand in which list; each operation of `Kernel.DlList` is given here as what it does to
the tasks.
-/
import EinkLiteOS.Kernel.DlList

namespace EinkLiteOS.Kernel

open EinkLiteOS.Theory.RingList

set_option autoImplicit false

/-- `OS_PRIORITY_QUEUE_NUM` -/
def osPriorityQueueNum : Nat := 32

/-- The addresses in the pointers: the heads of the lists, and the `pendList` of each task. -/
inductive Node where
  | priQueue (priority : Nat)
  | eventList (event : Nat)
  | readWriteList (queueID : Nat) (write : Bool)
  | freeTask
  | taskRecyle
  | pendList (taskID : Nat)
deriving DecidableEq

/-- A list starts at the address. -/
def Node.IsHead : Node → Prop
  | .priQueue priority => priority < osPriorityQueueNum
  | .pendList _ => False
  | _ => True

/-- The lists tasks wait in. -/
def Node.Waits : Node → Prop
  | .eventList _ | .readWriteList _ _ => True
  | _ => False

/-- `OS_TCB_FROM_PENDLIST` -/
def Node.tcb : Node → Option Nat
  | .pendList taskID => some taskID
  | _ => none

theorem Node.Waits.isHead {h : Node} (waits : h.Waits) : h.IsHead := by
  cases h <;> trivial

/-- The lists with these tasks. -/
def tableOf (q : Node → List Nat) : Lists Node :=
  { heads := {h | h.IsHead}, nodes := fun h => (q h).map .pendList }

/-- The pointers hold the lists of tasks, and there are no others. -/
structure Queues (m : Links Node) (q : Node → List Nat) : Prop where
  holds : Holds m (tableOf q)
  others : ∀ h, ¬ h.IsHead → q h = []

/-- The task stands in no list. -/
def Unlisted (q : Node → List Nat) (taskID : Nat) : Prop := ∀ h, h.IsHead → taskID ∉ q h

theorem tableOf_set (q : Node → List Nat) (h : Node) (tasks : List Nat) :
    (tableOf q).set h (tasks.map .pendList) = tableOf (Function.update q h tasks) := by
  simp only [tableOf, Lists.set, Lists.mk.injEq, true_and]
  funext h'
  by_cases same : h' = h
  · subst same
    simp
  · simp [Function.update_of_ne same]

section Queues

variable {m : Links Node} {q : Node → List Nat} {h : Node} {taskID : Nat}

theorem Unlisted.free (unlisted : Unlisted q taskID) : (tableOf q).Free (.pendList taskID) := by
  intro h isHead member
  rcases List.mem_cons.mp member with same | inList
  · subst same
    exact isHead
  · obtain ⟨t, inList, same⟩ := List.mem_map.mp inList
    cases same
    exact unlisted h isHead inList

theorem Queues.head (queues : Queues m q) (here : taskID ∈ q h) : h.IsHead := by
  by_contra notHead
  rw [queues.others h notHead] at here
  exact List.not_mem_nil here

theorem Queues.nodup (queues : Queues m q) (h : Node) : (q h).Nodup := by
  by_cases isHead : h.IsHead
  · exact List.Nodup.of_map _ (List.nodup_cons.mp (queues.holds.ring h isHead).nodup).2
  · rw [queues.others h isHead]
    exact List.nodup_nil

/-- **No task stands in two lists.** -/
theorem Queues.unique (queues : Queues m q) {h' : Node} (here : taskID ∈ q h)
    (there : taskID ∈ q h') : h = h' := by
  by_contra different
  have mem : ∀ k, taskID ∈ q k → Node.pendList taskID ∈ k :: (tableOf q).nodes k := fun k member =>
    List.mem_cons_of_mem k (List.mem_map_of_mem member)
  exact queues.holds.apart h (queues.head here) h' (queues.head there) different _ (mem h here)
    (mem h' there)

/-- A task that leaves its list leaves all of them. -/
theorem Queues.erase (queues : Queues m q) (inList : taskID ∈ q h) :
    Function.update q h ((q h).erase taskID) = fun k => (q k).erase taskID := by
  funext k
  by_cases same : k = h
  · subst same
    exact Function.update_self _ _ _
  · rw [Function.update_of_ne same, List.erase_of_not_mem]
    exact fun there => same (queues.unique there inList)

theorem others_update {q : Node → List Nat} (others : ∀ k, ¬ k.IsHead → q k = [])
    (isHead : h.IsHead) (tasks : List Nat) (k : Node) (notHead : ¬ k.IsHead) :
    Function.update q h tasks k = [] := by
  have different : k ≠ h := by
    rintro rfl
    exact notHead isHead
  rw [Function.update_of_ne different]
  exact others k notHead

/-- `LOS_ListEmpty` -/
theorem Queues.empty (queues : Queues m q) (isHead : h.IsHead) :
    losListEmpty m h = true ↔ q h = [] := by
  rw [(queues.holds.visits isHead).2]
  exact List.map_eq_nil_iff

theorem Queues.notEmpty (queues : Queues m q) (isHead : h.IsHead) (some : q h ≠ []) :
    losListEmpty m h = false :=
  Bool.eq_false_iff.mpr fun empty => some ((queues.empty isHead).mp empty)

/-- `LOS_DL_LIST_FIRST` -/
theorem Queues.first (queues : Queues m q) (isHead : h.IsHead) {rest : List Nat}
    (tasks : q h = taskID :: rest) : m.next h = some (.pendList taskID) := by
  obtain ⟨back, cycle⟩ := cycle_first h ((tableOf q).nodes h)
  have next := ((queues.holds.ring h isHead).linked cycle).1
  rw [next]
  simp [tableOf, tasks, firstOf]

/-- The node behind a task. -/
theorem Queues.next (queues : Queues m q) (isHead : h.IsHead) {front back : List Nat}
    (tasks : q h = front ++ taskID :: back) :
    m.next (.pendList taskID) = some ((back.map Node.pendList).headD h) := by
  have nodes : (tableOf q).nodes h = front.map .pendList ++ .pendList taskID :: back.map .pendList := by
    simp [tableOf, tasks]
  obtain ⟨back', cycle⟩ :=
    cycle_behind h (.pendList taskID) (front.map Node.pendList) (back.map Node.pendList)
  rw [← nodes] at cycle
  exact ((queues.holds.ring h isHead).linked cycle).1

/-- **A task is put in front of a list**, `LOS_ListAdd`. -/
theorem Queues.add (queues : Queues m q) (isHead : h.IsHead) (unlisted : Unlisted q taskID) :
    ∃ m', losListAdd m h (.pendList taskID) = some m' ∧
      Queues m' (Function.update q h (taskID :: q h)) := by
  obtain ⟨m', added, holds⟩ := queues.holds.call (.add isHead unlisted.free)
  refine ⟨m', added, ?_, others_update queues.others isHead _⟩
  rw [← tableOf_set, List.map_cons]
  exact holds

/-- **A task is put at the end of a list**, `LOS_ListTailInsert`. -/
theorem Queues.tailInsert (queues : Queues m q) (isHead : h.IsHead)
    (unlisted : Unlisted q taskID) :
    ∃ m', losListTailInsert m h (.pendList taskID) = some m' ∧
      Queues m' (Function.update q h (q h ++ [taskID])) := by
  obtain ⟨m', added, holds⟩ := queues.holds.call (.tailInsert isHead unlisted.free)
  refine ⟨m', added, ?_, others_update queues.others isHead _⟩
  rw [← tableOf_set, List.map_append]
  exact holds

/-- **A task is taken out of its list**, `LOS_ListDelete`. -/
theorem Queues.delete (queues : Queues m q) (inList : taskID ∈ q h) :
    ∃ m', losListDelete m (.pendList taskID) = some m' ∧
      Queues m' (fun k => (q k).erase taskID) := by
  have isHead := queues.head inList
  obtain ⟨front, back, -, split, erased⟩ := List.exists_erase_eq inList
  have nodes : (tableOf q).nodes h = front.map .pendList ++ .pendList taskID :: back.map .pendList := by
    simp [tableOf, split]
  obtain ⟨m', deleted, holds⟩ := queues.holds.call (.delete isHead nodes)
  rw [← queues.erase inList]
  refine ⟨m', deleted, ?_, others_update queues.others isHead _⟩
  rw [← tableOf_set, erased, List.map_append]
  exact holds

end Queues

end EinkLiteOS.Kernel
