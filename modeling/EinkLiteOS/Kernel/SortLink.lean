/-
# Kernel.SortLink -- the list of deadlines

`kernel/src/los_sortlink.c`: the tasks that wait for a time, in the order of their times.  A
new node is compared with the first one, and behind it the list is searched from its end.

`insertResponse` is what that is: in front of the first node with a later time, but directly
behind the first node of all if that has the same time.  From an empty list, whatever nodes
are added and taken out, the pointers hold the nodes that are waiting, sorted by their times
(`deadlines_sorted`).  The next interrupt of the timer is set by the first nodes of two such
lists (`next_expire`).
-/
import EinkLiteOS.Kernel.DlList
import Mathlib.Data.List.TakeWhile

namespace EinkLiteOS.Kernel

open EinkLiteOS.Theory.RingList

set_option autoImplicit false

/-- `OS_SORT_LINK_INVALID_TIME` -/
def osSortLinkInvalidTime : UInt64 := 0xFFFFFFFFFFFFFFFF

variable {α : Type} [DecidableEq α]

/-! ## The functions -/

/-- The loop at the end of `OsAddNode2SortLink`, as far as the fuel lasts. -/
def addBehindEarlier (m : Links α) (responseTime : α → UInt64) (node : α) :
    Nat → α → Option (Links α)
  | 0, _ => none
  | fuel + 1, prevNode =>
      if responseTime prevNode ≤ responseTime node then losListAdd m prevNode node
      else do addBehindEarlier m responseTime node fuel (← m.prev prevNode)

/-- `OsAddNode2SortLink` -/
def osAddNode2SortLink (m : Links α) (responseTime : α → UInt64) (fuel : Nat) (head node : α) :
    Option (Links α) :=
  if losListEmpty m head then losListAdd m head node
  else do
    let listSorted ← m.next head
    if responseTime node < responseTime listSorted then losListAdd m head node
    else if responseTime listSorted = responseTime node then losListAdd m listSorted node
    else addBehindEarlier m responseTime node fuel (← m.prev head)

/-- The pointers of the nodes and their times. -/
structure SortLink (α : Type) where
  links : Links α
  responseTime : α → UInt64

/-- `OsAdd2SortLink`, for the link at `head`. -/
def osAdd2SortLink (cyclePerTick : UInt64) (s : SortLink α) (fuel : Nat) (head node : α)
    (startTime : UInt64) (waitTicks : UInt32) : Option (SortLink α) := do
  let responseTime :=
    Function.update s.responseTime node (startTime + waitTicks.toUInt64 * cyclePerTick)
  let links ← osAddNode2SortLink s.links responseTime fuel head node
  return { links, responseTime }

/-- `OsDeleteNodeSortLink` -/
def osDeleteNodeSortLink (s : SortLink α) (node : α) : Option (SortLink α) := do
  let links ← losListDelete s.links node
  return { links, responseTime := Function.update s.responseTime node osSortLinkInvalidTime }

/-- `OsDeleteSortLink` -/
def osDeleteSortLink (s : SortLink α) (node : α) : Option (SortLink α) :=
  if s.responseTime node ≠ osSortLinkInvalidTime then osDeleteNodeSortLink s node else some s

/-- The loop of `OsGetSortLinkNextExpireTime` from `list` on, as far as the fuel lasts: the two
times it leaves. -/
def scanExpire (s : SortLink α) (head : α) (startTime : UInt64) :
    Nat → α → UInt64 → Option (UInt64 × UInt64)
  | 0, _, _ => none
  | fuel + 1, list, expirTime =>
      if s.responseTime list ≤ startTime then do
        let next ← s.links.next list
        if next ≠ head then scanExpire s head startTime fuel next startTime
        else return (startTime, 0)
      else some (expirTime, s.responseTime list)

/-- `OS_SCHED_MAX_RESPONSE_TIME` -/
def osSchedMaxResponseTime : UInt64 := 0xFFFFFFFFFFFFFFFF - 1

/-- `OsGetSortLinkNextExpireTime` -/
def osGetSortLinkNextExpireTime (cyclePerTick usPerTick : UInt64) (s : SortLink α) (fuel : Nat)
    (head : α) (startTime : UInt64) : Option UInt64 := do
  let list ← s.links.next head
  if losListEmpty s.links head then return osSchedMaxResponseTime - cyclePerTick
  else
    let (expirTime, nextExpirTime) ← scanExpire s head startTime fuel list 0
    if expirTime = 0 then return nextExpirTime
    else if nextExpirTime = 0 then return expirTime
    else if nextExpirTime - expirTime ≤ usPerTick then return nextExpirTime
    else return expirTime

/-- `OsGetNextExpireTime`, for the links of the tasks and of the software timers. -/
def osGetNextExpireTime (cyclePerTick usPerTick : UInt64) (task swtmr : SortLink α) (fuel : Nat)
    (taskHeader swtmrHeader : α) (startTime : UInt64) : Option UInt64 := do
  let taskExpirTime ←
    osGetSortLinkNextExpireTime cyclePerTick usPerTick task fuel taskHeader startTime
  let swtmrExpirTime ←
    osGetSortLinkNextExpireTime cyclePerTick usPerTick swtmr fuel swtmrHeader startTime
  return if taskExpirTime < swtmrExpirTime then taskExpirTime else swtmrExpirTime

/-! ## The list -/

/-- A node put into a sorted list. -/
def insertResponse (responseTime : α → UInt64) (node : α) : List α → List α
  | [] => [node]
  | first :: rest =>
      if responseTime node < responseTime first then node :: first :: rest
      else if responseTime first = responseTime node then first :: node :: rest
      else (first :: rest).takeWhile (responseTime · ≤ responseTime node) ++
        node :: (first :: rest).dropWhile (responseTime · ≤ responseTime node)

/-- The nodes stand in the order of their times. -/
def Sorted (responseTime : α → UInt64) (nodes : List α) : Prop :=
  nodes.Pairwise fun a b => responseTime a ≤ responseTime b

section Insert

variable {responseTime : α → UInt64} {node : α}

omit [DecidableEq α] in
/-- In a sorted list every node behind the first later one is later. -/
theorem Sorted.later {nodes : List α} (sorted : Sorted responseTime nodes) (t : UInt64) :
    ∀ a ∈ nodes.dropWhile (responseTime · ≤ t), t < responseTime a := by
  induction nodes with
  | nil => exact List.forall_mem_nil _
  | cons a rest ih =>
      obtain ⟨first, others⟩ := List.pairwise_cons.mp sorted
      by_cases early : responseTime a ≤ t
      · rw [List.dropWhile_cons, if_pos (decide_eq_true early)]
        exact ih others
      · have late : t < responseTime a := UInt64.not_le.mp early
        rw [List.dropWhile_cons, if_neg (by simpa using early)]
        refine List.forall_mem_cons.mpr ⟨late, ?_⟩
        intro b member
        exact UInt64.lt_of_lt_of_le late (first b member)

omit [DecidableEq α] in
theorem insertResponse_perm (nodes : List α) :
    (insertResponse responseTime node nodes).Perm (node :: nodes) := by
  cases nodes with
  | nil => exact List.Perm.refl _
  | cons first rest =>
      rw [insertResponse]
      split
      · exact List.Perm.refl _
      · split
        · exact List.Perm.swap node first rest
        · refine List.perm_middle.trans (List.Perm.cons node ?_)
          rw [List.takeWhile_append_dropWhile]

omit [DecidableEq α] in
/-- **The list stays sorted.** -/
theorem Sorted.insert {nodes : List α} (sorted : Sorted responseTime nodes) :
    Sorted responseTime (insertResponse responseTime node nodes) := by
  cases nodes with
  | nil => exact List.pairwise_singleton _ _
  | cons first rest =>
      obtain ⟨ahead, others⟩ := List.pairwise_cons.mp sorted
      rw [insertResponse]
      split
      case isTrue early =>
        refine List.pairwise_cons.mpr ⟨?_, sorted⟩
        refine List.forall_mem_cons.mpr ⟨UInt64.le_of_lt early, ?_⟩
        intro b member
        exact UInt64.le_trans (UInt64.le_of_lt early) (ahead b member)
      case isFalse =>
        split
        case isTrue same =>
          refine List.pairwise_cons.mpr ⟨?_, List.pairwise_cons.mpr ⟨?_, others⟩⟩
          · exact List.forall_mem_cons.mpr ⟨UInt64.le_of_eq same, ahead⟩
          · rw [← same]
            exact ahead
        case isFalse =>
          have late := sorted.later (responseTime node)
          have early : ∀ a ∈ (first :: rest).takeWhile (responseTime · ≤ responseTime node),
              responseTime a ≤ responseTime node := fun a member => by
            simpa using List.mem_takeWhile_imp member
          have parts := sorted
          rw [Sorted, ← List.takeWhile_append_dropWhile (p := (responseTime · ≤ responseTime node))
            (l := first :: rest), List.pairwise_append] at parts
          refine List.pairwise_append.mpr ⟨parts.1, List.pairwise_cons.mpr ⟨?_, parts.2.1⟩, ?_⟩
          · exact fun a member => UInt64.le_of_lt (late a member)
          · intro a inFront b inBack
            rcases List.mem_cons.mp inBack with rfl | inBack
            · exact early a inFront
            · exact parts.2.2 a inFront b inBack

end Insert

/-! ## The pointers -/

section Pointers

variable {m : Links α} {t : Lists α} {head node : α} {responseTime : α → UInt64}

/-- The search from the end of the list stops behind the last node that is not later. -/
theorem addBehindEarlier_eq (holds : Holds m t) (isHead : head ∈ t.heads) {x : α}
    (early : responseTime x ≤ responseTime node) {front later : List α} (spare : Nat)
    (late : ∀ a ∈ later, responseTime node < responseTime a) (back : List α)
    (split : t.nodes head = front ++ x :: later ++ back) :
    addBehindEarlier m responseTime node (later.length + 1 + spare) (lastOf x later) =
      losListAdd m x node := by
  induction later using List.reverseRecOn generalizing back with
  | nil =>
      show addBehindEarlier m responseTime node (0 + 1 + spare) x = _
      rw [Nat.add_assoc, Nat.zero_add, Nat.add_comm, addBehindEarlier, if_pos early]
  | append_singleton later a ih =>
      have lateA : ¬ responseTime a ≤ responseTime node :=
        UInt64.not_le.mpr (late a (List.mem_append_right _ (List.mem_singleton_self a)))
      have last : lastOf x (later ++ [a]) = a := by simp [lastOf]
      obtain ⟨before, ends⟩ := last_of_cons x later
      have around : head :: (t.nodes head ++ [head]) =
          (head :: front ++ before) ++ lastOf x later :: a :: (back ++ [head]) := by
        rw [split, show x :: (later ++ [a]) = before ++ [lastOf x later] ++ [a] by
          rw [← ends]
          rfl]
        simp
      have prev := ((holds.ring head isHead).linked around).2
      have later' := ih (fun b member => late b (List.mem_append_left _ member)) ([a] ++ back)
        (by rw [split]; simp)
      rw [last, List.length_append, List.length_singleton, Nat.add_right_comm, addBehindEarlier,
        if_neg lateA, prev]
      exact later'

/-- Where not all nodes of a sorted list are later, the search puts the node behind those that are
not. -/
theorem addBehindEarlier_holds (holds : Holds m t) (isHead : head ∈ t.heads)
    (free : t.Free node) {nodes : List α} (inList : t.nodes head = nodes)
    (sorted : Sorted responseTime nodes)
    (notAll : nodes.takeWhile (responseTime · ≤ responseTime node) ≠ []) {fuel : Nat}
    (enough : nodes.length ≤ fuel) :
    ∃ x m', m.prev head = some x ∧
      addBehindEarlier m responseTime node fuel x = some m' ∧
      Holds m' (t.set head (nodes.takeWhile (responseTime · ≤ responseTime node) ++
        node :: nodes.dropWhile (responseTime · ≤ responseTime node))) := by
  obtain ⟨front, x, taken⟩ : ∃ front x,
      nodes.takeWhile (responseTime · ≤ responseTime node) = front ++ [x] :=
    ⟨_, _, (List.dropLast_append_getLast notAll).symm⟩
  have notLate : responseTime x ≤ responseTime node := by
    have member : x ∈ nodes.takeWhile (responseTime · ≤ responseTime node) := by
      rw [taken]
      exact List.mem_append_right _ (List.mem_singleton_self x)
    simpa using List.mem_takeWhile_imp member
  have whole := List.takeWhile_append_dropWhile (p := (responseTime · ≤ responseTime node))
    (l := nodes)
  have late := sorted.later (responseTime node)
  rw [taken, List.append_assoc, List.singleton_append] at whole
  rw [taken, List.append_assoc, List.singleton_append]
  generalize nodes.dropWhile (responseTime · ≤ responseTime node) = later at *
  have split : t.nodes head = front ++ x :: later := inList.trans whole.symm
  obtain ⟨spare, fuelIs⟩ : ∃ spare, fuel = later.length + 1 + spare := by
    rw [← whole, List.length_append, List.length_cons] at enough
    exact ⟨fuel - (later.length + 1), by omega⟩
  obtain ⟨front', -, cycleLast⟩ := cycle_last head (t.nodes head)
  have prev := ((holds.ring head isHead).linked cycleLast).2
  have lastIs : lastOf head (t.nodes head) = lastOf x later := by
    rw [split, lastOf_append_cons]
  have walked := addBehindEarlier_eq holds isHead notLate spare late []
    (by rw [List.append_nil]; exact split)
  obtain ⟨m', added, holds'⟩ := holds.call (.addBehind isHead free split)
  refine ⟨lastOf x later, m', lastIs ▸ prev, ?_, holds'⟩
  rw [fuelIs, walked]
  exact added

/-- **A node is added to a sorted link**, with fuel for its nodes. -/
theorem osAddNode2SortLink_holds (holds : Holds m t) (isHead : head ∈ t.heads)
    (free : t.Free node) (sorted : Sorted responseTime (t.nodes head)) {fuel : Nat}
    (enough : (t.nodes head).length ≤ fuel) :
    ∃ m', osAddNode2SortLink m responseTime fuel head node = some m' ∧
      Holds m' (t.set head (insertResponse responseTime node (t.nodes head))) := by
  have empty := (holds.visits isHead).2
  obtain ⟨atHead, added, holdsAtHead⟩ := holds.call (.add isHead free)
  obtain ⟨back, cycle⟩ := cycle_first head (t.nodes head)
  have next := ((holds.ring head isHead).linked cycle).1
  cases nodes : t.nodes head with
  | nil =>
      refine ⟨atHead, ?_, ?_⟩
      · rw [osAddNode2SortLink, if_pos (empty.mpr nodes)]
        exact added
      · rw [nodes] at holdsAtHead
        exact holdsAtHead
  | cons first rest =>
      have notEmpty : ¬ losListEmpty m head = true := by
        rw [empty, nodes]
        exact List.cons_ne_nil _ _
      have firstIs : firstOf head (t.nodes head) = first := by rw [nodes]; rfl
      rw [firstIs] at next
      rw [osAddNode2SortLink, if_neg notEmpty, next, insertResponse]
      simp only [Option.bind_eq_bind, Option.bind_some]
      by_cases early : responseTime node < responseTime first
      · rw [if_pos early, if_pos early]
        rw [nodes] at holdsAtHead
        exact ⟨atHead, added, holdsAtHead⟩
      · rw [if_neg early, if_neg early]
        by_cases same : responseTime first = responseTime node
        · rw [if_pos same, if_pos same]
          have inList : t.nodes head = [] ++ first :: rest := nodes
          exact holds.call (.addBehind isHead free inList)
        · rw [if_neg same, if_neg same]
          have before : responseTime first ≤ responseTime node := UInt64.not_lt.mp early
          have notAll : (first :: rest).takeWhile (responseTime · ≤ responseTime node) ≠ [] := by
            rw [List.takeWhile_cons, if_pos (decide_eq_true before)]
            exact List.cons_ne_nil _ _
          obtain ⟨x, m', prev, walked, holds'⟩ := addBehindEarlier_holds holds isHead free nodes
            (nodes ▸ sorted) notAll (nodes ▸ enough)
          refine ⟨m', ?_, holds'⟩
          rw [prev, Option.bind_some, walked]

end Pointers

/-! ## Runs -/

/-- A call of one of the functions that change the link. -/
inductive SortCall (α : Type) where
  | add (node : α) (startTime : UInt64) (waitTicks : UInt32)
  | delete (node : α)

/-- The call on the link at `head`. -/
def SortCall.run (cyclePerTick : UInt64) (fuel : Nat) (head : α) (s : SortLink α) :
    SortCall α → Option (SortLink α)
  | add node startTime waitTicks => osAdd2SortLink cyclePerTick s fuel head node startTime waitTicks
  | delete node => osDeleteSortLink s node

/-- The calls on the link, one after the other. -/
def runSortCalls (cyclePerTick : UInt64) (fuel : Nat) (head : α) (s : SortLink α) :
    List (SortCall α) → Option (SortLink α)
  | [] => some s
  | call :: rest => do
      runSortCalls cyclePerTick fuel head (← call.run cyclePerTick fuel head s) rest

/-- The deadlines after a call. -/
def SortCall.deadlines (cyclePerTick : UInt64) (deadline : α → UInt64) : SortCall α → α → UInt64
  | add node startTime waitTicks =>
      Function.update deadline node (startTime + waitTicks.toUInt64 * cyclePerTick)
  | delete node => Function.update deadline node osSortLinkInvalidTime

/-- A node is added that does not wait, for a time there is. -/
def SortCall.May (cyclePerTick : UInt64) (head : α) (deadline : α → UInt64) : SortCall α → Prop
  | add node startTime waitTicks =>
      node ≠ head ∧ deadline node = osSortLinkInvalidTime ∧
        startTime + waitTicks.toUInt64 * cyclePerTick ≠ osSortLinkInvalidTime
  | delete _ => True

/-- Each of the calls may be made. -/
def MayAll (cyclePerTick : UInt64) (head : α) (deadline : α → UInt64) : List (SortCall α) → Prop
  | [] => True
  | call :: rest =>
      call.May cyclePerTick head deadline ∧
        MayAll cyclePerTick head (call.deadlines cyclePerTick deadline) rest

/-- The pointers hold the nodes that wait, in the order of their deadlines. -/
structure Waiting (head : α) (deadline : α → UInt64) (s : SortLink α) (nodes : List α) : Prop where
  times : s.responseTime = deadline
  ring : ∃ t : Lists α, Holds s.links t ∧ t.heads = {head} ∧ t.nodes head = nodes
  sorted : Sorted deadline nodes
  waits : ∀ a, a ∈ nodes ↔ deadline a ≠ osSortLinkInvalidTime

section Runs

variable {cyclePerTick : UInt64} {head : α} {deadline : α → UInt64} {s : SortLink α}
  {nodes : List α}

omit [DecidableEq α] in
theorem Waiting.nodup (waiting : Waiting head deadline s nodes) : (head :: nodes).Nodup := by
  obtain ⟨t, holds, heads, rfl⟩ := waiting.ring
  exact (holds.ring head (by simp [heads])).nodup

omit [DecidableEq α] in
theorem Sorted.congr {deadline' : α → UInt64} (sorted : Sorted deadline nodes)
    (same : ∀ a ∈ nodes, deadline' a = deadline a) : Sorted deadline' nodes :=
  sorted.imp_of_mem fun {a b} inA inB le => by
    rw [same a inA, same b inB]
    exact le

/-- `LOS_ListEmpty` -/
theorem Waiting.empty (waiting : Waiting head deadline s nodes) :
    losListEmpty s.links head = true ↔ nodes = [] := by
  obtain ⟨t, holds, heads, rfl⟩ := waiting.ring
  exact (holds.visits (by simp [heads])).2

omit [DecidableEq α] in
/-- The first node of the link. -/
theorem Waiting.next (waiting : Waiting head deadline s nodes) :
    s.links.next head = some (firstOf head nodes) := by
  obtain ⟨t, holds, heads, rfl⟩ := waiting.ring
  have isHead : head ∈ t.heads := by simp [heads]
  obtain ⟨back, cycle⟩ := cycle_first head (t.nodes head)
  exact ((holds.ring head isHead).linked cycle).1

/-- **A node is added**, `OsAdd2SortLink`. -/
theorem Waiting.add (waiting : Waiting head deadline s nodes) {node : α} {startTime : UInt64}
    {waitTicks : UInt32} (may : SortCall.May cyclePerTick head deadline (.add node startTime waitTicks))
    {fuel : Nat} (enough : nodes.length ≤ fuel) {deadline' : α → UInt64}
    (later : Function.update deadline node (startTime + waitTicks.toUInt64 * cyclePerTick) =
      deadline') :
    ∃ s', osAdd2SortLink cyclePerTick s fuel head node startTime waitTicks = some s' ∧
      Waiting head deadline' s' (insertResponse deadline' node nodes) := by
  obtain ⟨times, ⟨t, holds, heads, inList⟩, sorted, waits⟩ := waiting
  have isHead : head ∈ t.heads := by simp [heads]
  obtain ⟨notHead, idle, isTime⟩ := may
  have absent : node ∉ nodes := fun member => (waits node).mp member idle
  have free : t.Free node := by
    intro h inHeads member
    rw [heads, Set.mem_singleton_iff] at inHeads
    subst inHeads
    rw [inList] at member
    exact (List.mem_cons.mp member).elim notHead absent
  have others : ∀ a ∈ nodes, deadline' a = deadline a := by
    intro a member
    have other : a ≠ node := by
      rintro rfl
      exact absent member
    rw [← later, Function.update_of_ne other]
  have sorted' : Sorted deadline' nodes := sorted.congr others
  rw [← inList] at sorted' enough
  obtain ⟨m', added, holds'⟩ := osAddNode2SortLink_holds holds isHead free sorted' enough
  rw [inList] at holds' sorted'
  refine ⟨⟨m', deadline'⟩, ?_, rfl, ?_, sorted'.insert, ?_⟩
  · simp only [osAdd2SortLink, times, later, added]
    rfl
  · exact ⟨_, holds', heads, by simp [Lists.set]⟩
  · intro a
    rw [(insertResponse_perm nodes).mem_iff, List.mem_cons, ← later]
    by_cases same : a = node
    · subst same
      rw [Function.update_self]
      exact ⟨fun _ => isTime, fun _ => Or.inl rfl⟩
    · rw [Function.update_of_ne same, ← waits a]
      exact ⟨fun member => member.resolve_left same, Or.inr⟩

/-- **A node that waits is deleted**, `OsDeleteNodeSortLink`. -/
theorem Waiting.deleteNode (waiting : Waiting head deadline s nodes) {node : α}
    (inList : node ∈ nodes) :
    ∃ s', osDeleteNodeSortLink s node = some s' ∧
      Waiting head (Function.update deadline node osSortLinkInvalidTime) s' (nodes.erase node) := by
  obtain ⟨times, ⟨t, holds, heads, list⟩, sorted, waits⟩ := waiting
  have isHead : head ∈ t.heads := by simp [heads]
  obtain ⟨front, back, before, split, erased⟩ := List.exists_erase_eq inList
  obtain ⟨m', deleted, holds'⟩ := holds.call (.delete isHead (list.trans split))
  have nodup : nodes.Nodup := by
    have all := (holds.ring head isHead).nodup
    rw [list] at all
    exact (List.nodup_cons.mp all).2
  have others : ∀ a, a ≠ node →
      Function.update deadline node osSortLinkInvalidTime a = deadline a :=
    fun a other => Function.update_of_ne other _ _
  refine ⟨⟨m', Function.update deadline node osSortLinkInvalidTime⟩, ?_, rfl, ?_, ?_, ?_⟩
  · have run : losListDelete s.links node = some m' := deleted
    simp only [osDeleteNodeSortLink, run, times]
    rfl
  · exact ⟨_, holds', heads, by simp [Lists.set, erased]⟩
  · have rest : Sorted deadline (nodes.erase node) := sorted.sublist (List.erase_sublist)
    refine rest.congr fun a member => others a ?_
    exact (nodup.mem_erase_iff.mp member).1
  · intro a
    rw [nodup.mem_erase_iff]
    by_cases same : a = node
    · subst same
      rw [Function.update_self]
      exact iff_of_false (fun both => both.1 rfl) (not_not_intro rfl)
    · rw [others a same, ← waits a]
      exact and_iff_right same

/-- **A node is deleted, if it waits**, `OsDeleteSortLink`. -/
theorem Waiting.delete (waiting : Waiting head deadline s nodes) (node : α) :
    ∃ s', osDeleteSortLink s node = some s' ∧
      Waiting head (Function.update deadline node osSortLinkInvalidTime) s' (nodes.erase node) := by
  have times := waiting.times
  by_cases inList : node ∈ nodes
  · obtain ⟨s', deleted, waiting'⟩ := waiting.deleteNode inList
    refine ⟨s', ?_, waiting'⟩
    rw [osDeleteSortLink, times, if_pos ((waiting.waits node).mp inList)]
    exact deleted
  · have idle : deadline node = osSortLinkInvalidTime :=
      not_not.mp fun waits => inList ((waiting.waits node).mpr waits)
    refine ⟨s, ?_, ?_⟩
    · rw [osDeleteSortLink, times, if_neg (not_not_intro idle)]
    · rw [← idle, Function.update_eq_self, List.erase_of_not_mem inList]
      exact waiting

/-- **One call.** -/
theorem Waiting.call (waiting : Waiting head deadline s nodes) {call : SortCall α}
    (may : call.May cyclePerTick head deadline) {fuel : Nat} (enough : nodes.length ≤ fuel) :
    ∃ s' nodes', call.run cyclePerTick fuel head s = some s' ∧
      Waiting head (call.deadlines cyclePerTick deadline) s' nodes' ∧
      nodes'.length ≤ nodes.length + 1 := by
  cases call with
  | add node startTime waitTicks =>
      obtain ⟨s', added, waiting'⟩ := waiting.add may enough rfl
      refine ⟨s', _, added, waiting', ?_⟩
      rw [(insertResponse_perm nodes).length_eq, List.length_cons]
  | delete node =>
      obtain ⟨s', deleted, waiting'⟩ := waiting.delete node
      exact ⟨s', _, deleted, waiting', Nat.le_succ_of_le List.length_erase_le⟩

/-- The calls one after the other, with fuel for them all. -/
theorem Waiting.calls {calls : List (SortCall α)} (waiting : Waiting head deadline s nodes)
    (may : MayAll cyclePerTick head deadline calls) {fuel : Nat}
    (enough : nodes.length + calls.length ≤ fuel) :
    ∃ s' nodes', runSortCalls cyclePerTick fuel head s calls = some s' ∧
      Waiting head (calls.foldl (SortCall.deadlines cyclePerTick) deadline) s' nodes' ∧
      nodes'.length ≤ fuel := by
  induction calls generalizing s deadline nodes with
  | nil => exact ⟨s, nodes, rfl, waiting, enough⟩
  | cons call rest ih =>
      rw [List.length_cons] at enough
      have here : nodes.length ≤ fuel := by omega
      obtain ⟨s', nodes', ran, waiting', length⟩ := waiting.call may.1 here
      obtain ⟨s'', nodes'', rests, waiting'', length'⟩ := ih waiting' may.2 (by omega)
      exact ⟨s'', nodes'', by rw [runSortCalls, ran]; exact rests, waiting'', length'⟩

/-- The link as `OsSortLinkInit` leaves it, when no node waits. -/
theorem Waiting.init (m : Links α) (head : α) :
    Waiting head (fun _ => osSortLinkInvalidTime) ⟨losListInit m head, fun _ => osSortLinkInvalidTime⟩
      [] := by
  have none : Holds m (noLists : Lists α) :=
    ⟨fun _ isHead => isHead.elim, fun _ isHead => isHead.elim⟩
  have free : (noLists : Lists α).Free head := fun _ isHead => isHead.elim
  obtain ⟨m', ran, holds⟩ := none.call (.init free)
  cases ran
  refine ⟨rfl, ⟨_, holds, ?_, ?_⟩, List.Pairwise.nil, ?_⟩
  · simp [Lists.open, noLists]
  · simp [Lists.open]
  · simp

/-- **The deadlines are sorted**: whatever nodes are added and deleted, the link holds exactly
the nodes with a deadline, once each and in the order of the deadlines. -/
theorem deadlines_sorted (cyclePerTick : UInt64) (m : Links α) (head : α)
    {calls : List (SortCall α)}
    (may : MayAll cyclePerTick head (fun _ => osSortLinkInvalidTime) calls) :
    ∃ s nodes first,
      runSortCalls cyclePerTick calls.length head
        ⟨losListInit m head, fun _ => osSortLinkInvalidTime⟩ calls = some s ∧
      s.links.next head = some first ∧
      forEach s.links head (nodes.length + 1) first = some nodes ∧
      s.responseTime = calls.foldl (SortCall.deadlines cyclePerTick)
        (fun _ => osSortLinkInvalidTime) ∧
      nodes.Pairwise (fun a b => s.responseTime a ≤ s.responseTime b) ∧ nodes.Nodup ∧
      ∀ a, a ∈ nodes ↔ s.responseTime a ≠ osSortLinkInvalidTime := by
  have enough : ([] : List α).length + calls.length ≤ calls.length := by simp
  obtain ⟨s, nodes, ran, waiting, -⟩ := (Waiting.init m head).calls may enough
  obtain ⟨times, ⟨t, holds, heads, inList⟩, sorted, waits⟩ := waiting
  obtain ⟨⟨first, next, walk⟩, -⟩ := holds.visits (h := head) (by simp [heads])
  rw [inList] at walk
  refine ⟨s, nodes, first, ran, next, walk, times, ?_, ?_, ?_⟩
  · rw [times]
    exact sorted
  · exact (List.nodup_cons.mp (Waiting.nodup ⟨times, ⟨t, holds, heads, inList⟩, sorted, waits⟩)).2
  · rw [times]
    exact waits

/-- Two nodes go in, and the one with the earlier deadline stands first. -/
theorem deadlines_sorted_two :
    ∃ (s : SortLink Nat) (nodes : List Nat), runSortCalls 10 2 0
        (⟨losListInit ⟨fun _ => none, fun _ => none⟩ 0, fun _ => osSortLinkInvalidTime⟩ : SortLink Nat)
        [.add 1 100 5, .add 2 100 3] = some s ∧ nodes.Pairwise (fun a b =>
          s.responseTime a ≤ s.responseTime b) ∧ 1 ∈ nodes := by
  have may : MayAll 10 0 (fun _ => osSortLinkInvalidTime)
      [SortCall.add 1 100 5, SortCall.add 2 100 3] := by
    refine ⟨⟨by decide, rfl, by decide⟩, ⟨by decide, ?_, by decide⟩, trivial⟩
    simp [SortCall.deadlines]
  obtain ⟨s, nodes, -, ran, -, -, times, sorted, -, waits⟩ :=
    deadlines_sorted 10 ⟨fun _ => none, fun _ => none⟩ 0 may
  refine ⟨s, nodes, ran, sorted, (waits 1).mpr ?_⟩
  rw [times]
  decide

/-! ## The next deadline -/

/-- The first deadline after `startTime`; 0 is none. -/
def firstLater (deadline : α → UInt64) (startTime : UInt64) (nodes : List α) : UInt64 :=
  ((nodes.dropWhile (deadline · ≤ startTime)).head?.map deadline).getD 0

/-- **The loop finds the first deadline after `startTime`**, and notes whether it passed another
one. -/
theorem Waiting.scanExpire_eq (waiting : Waiting head deadline s nodes) (startTime : UInt64)
    (spare : Nat) {front back : List α} {a : α} (split : nodes = front ++ a :: back)
    (expirTime : UInt64) :
    scanExpire s head startTime ((a :: back).length + spare) a expirTime =
      some (if deadline a ≤ startTime then startTime else expirTime,
        firstLater deadline startTime (a :: back)) := by
  obtain ⟨t, holds, heads, inList⟩ := waiting.ring
  have ring := holds.ring head (by simp [heads])
  rw [inList, split] at ring
  induction back generalizing front a expirTime with
  | nil =>
      obtain ⟨back', cycle⟩ := cycle_behind head a front []
      have next := (ring.linked cycle).1
      rw [List.length_singleton, Nat.add_comm, scanExpire, waiting.times, next]
      by_cases due : deadline a ≤ startTime <;> simp [firstLater, due, firstOf]
  | cons b back ih =>
      obtain ⟨back', cycle⟩ := cycle_behind head a front (b :: back)
      have next := (ring.linked cycle).1
      have other : b ≠ head := by
        rintro rfl
        have nodup := waiting.nodup
        rw [split] at nodup
        exact (List.nodup_cons.mp nodup).1 (by simp)
      have split' : nodes = (front ++ [a]) ++ b :: back := by rw [split]; simp
      have later := ih split' startTime (by simpa using ring)
      rw [List.length_cons, Nat.add_right_comm, scanExpire, waiting.times, next]
      by_cases due : deadline a ≤ startTime
      · have skipped : firstLater deadline startTime (a :: b :: back) =
            firstLater deadline startTime (b :: back) := by
          simp [firstLater, List.dropWhile_cons, due]
        have seen : firstOf head (b :: back) = b := rfl
        rw [if_pos due, if_pos due, skipped]
        simp only [seen, ne_eq, other, not_false_eq_true, if_true, Option.bind_eq_bind,
          Option.bind_some, later, ite_self]
      · simp [due, firstLater]

theorem le_invalid (time : UInt64) : time ≤ osSortLinkInvalidTime := by
  rw [UInt64.le_iff_toNat_le]
  exact Nat.le_of_lt_succ (UInt64.toNat_lt time)

/-- What the next expire time of a link is good for. -/
structure Expires (cyclePerTick usPerTick startTime : UInt64) (deadline : α → UInt64)
    (time : UInt64) : Prop where
  early : ∀ a, startTime < deadline a → time ≤ deadline a
  soon : startTime ≠ 0 → ∀ a, deadline a ≤ startTime →
    time.toNat ≤ startTime.toNat + usPerTick.toNat
  exact : (∀ a, startTime < deadline a) →
    (time = osSchedMaxResponseTime - cyclePerTick ∧ ∀ a, deadline a = osSortLinkInvalidTime) ∨
      ∃ a, deadline a ≠ osSortLinkInvalidTime ∧ time = deadline a

theorem Waiting.firstLater_spec (waiting : Waiting head deadline s nodes) (startTime : UInt64) :
    (firstLater deadline startTime nodes = 0 ∧ ∀ a ∈ nodes, deadline a ≤ startTime) ∨
      (startTime < firstLater deadline startTime nodes ∧
        ∀ a, startTime < deadline a → firstLater deadline startTime nodes ≤ deadline a) := by
  have whole := List.takeWhile_append_dropWhile (p := (deadline · ≤ startTime)) (l := nodes)
  have early : ∀ a ∈ nodes.takeWhile (deadline · ≤ startTime), deadline a ≤ startTime :=
    fun a member => by simpa using List.mem_takeWhile_imp member
  have later := waiting.sorted.later startTime
  have sorted := waiting.sorted
  have waits := waiting.waits
  rw [firstLater]
  generalize nodes.takeWhile (deadline · ≤ startTime) = taken at *
  cases rest : nodes.dropWhile (deadline · ≤ startTime) with
  | nil =>
      rw [rest, List.append_nil] at whole
      rw [← whole]
      exact Or.inl ⟨rfl, early⟩
  | cons b back =>
      rw [rest] at whole later
      refine Or.inr ⟨later b List.mem_cons_self, ?_⟩
      intro a after
      by_cases inList : a ∈ nodes
      · rw [← whole] at inList sorted
        obtain ⟨-, behind, -⟩ := List.pairwise_append.mp sorted
        rcases List.mem_append.mp inList with inTaken | inRest
        · exact absurd after (UInt64.not_lt.mpr (early a inTaken))
        · rcases List.mem_cons.mp inRest with rfl | inBack
          · exact UInt64.le_refl _
          · exact (List.pairwise_cons.mp behind).1 a inBack
      · have idle : deadline a = osSortLinkInvalidTime :=
          not_not.mp fun waiting => inList ((waits a).mpr waiting)
        rw [idle]
        exact le_invalid _

omit [DecidableEq α] in
/-- The next expire time of a link on which no node waits. -/
theorem expires_idle (cyclePerTick usPerTick startTime : UInt64)
    (idle : ∀ a, deadline a = osSortLinkInvalidTime) :
    Expires cyclePerTick usPerTick startTime deadline
      (osSchedMaxResponseTime - cyclePerTick) where
  early a _ := by
    rw [idle a]
    exact le_invalid _
  soon _ a due := by
    rw [idle a] at due
    have most := UInt64.le_iff_toNat_le.mp
      (UInt64.le_trans (le_invalid (osSchedMaxResponseTime - cyclePerTick)) due)
    omega
  exact _ := Or.inl ⟨rfl, idle⟩

/-- What `OsGetSortLinkNextExpireTime` makes of the two times of its loop. -/
def expireTime (usPerTick expirTime nextExpirTime : UInt64) : UInt64 :=
  if expirTime = 0 then nextExpirTime
  else if nextExpirTime = 0 then expirTime
  else if nextExpirTime - expirTime ≤ usPerTick then nextExpirTime
  else expirTime

omit [DecidableEq α] in
/-- The next expire time of a link whose first deadline has passed. -/
theorem expires_due (cyclePerTick : UInt64) {usPerTick startTime nextExpirTime : UInt64} {a : α}
    (due : deadline a ≤ startTime) (later : nextExpirTime = 0 ∨ startTime < nextExpirTime)
    (early : ∀ b, startTime < deadline b → nextExpirTime ≤ deadline b) :
    Expires cyclePerTick usPerTick startTime deadline
      (expireTime usPerTick startTime nextExpirTime) := by
  have passed : ∀ P : Prop, (∀ b, startTime < deadline b) → P := fun P all =>
    absurd (all a) (UInt64.not_lt.mpr due)
  have now : Expires cyclePerTick usPerTick startTime deadline startTime :=
    ⟨fun _ after => UInt64.le_of_lt after, fun _ _ _ => Nat.le_add_right _ _, passed _⟩
  rw [expireTime]
  by_cases atZero : startTime = 0
  · rw [if_pos atZero]
    exact ⟨early, fun notZero => absurd atZero notZero, passed _⟩
  · rw [if_neg atZero]
    by_cases none : nextExpirTime = 0
    · rw [if_pos none]
      exact now
    · rw [if_neg none]
      by_cases close : nextExpirTime - startTime ≤ usPerTick
      · rw [if_pos close]
        refine ⟨early, fun _ _ _ => ?_, passed _⟩
        have after := UInt64.le_of_lt (later.resolve_left none)
        rw [UInt64.le_iff_toNat_le, UInt64.toNat_sub_of_le _ _ after] at close
        omega
      · rw [if_neg close]
        exact now

omit [DecidableEq α] in
/-- The next expire time of a link whose first deadline is to come. -/
theorem Waiting.expires_first (waiting : Waiting head deadline s nodes)
    (cyclePerTick usPerTick : UInt64) {startTime : UInt64} {a : α} {rest : List α}
    (split : nodes = a :: rest) (notDue : startTime < deadline a) :
    Expires cyclePerTick usPerTick startTime deadline (deadline a) := by
  have waits := (waiting.waits a).mp (split ▸ List.mem_cons_self)
  have sorted := waiting.sorted
  rw [split] at sorted
  have first : ∀ b, deadline a ≤ deadline b := by
    intro b
    by_cases idle : deadline b = osSortLinkInvalidTime
    · rw [idle]
      exact le_invalid _
    · have member := (waiting.waits b).mpr idle
      rw [split] at member
      rcases List.mem_cons.mp member with rfl | inRest
      · exact UInt64.le_refl _
      · exact (List.pairwise_cons.mp sorted).1 b inRest
  refine ⟨fun b _ => first b, fun _ b dueB => ?_, fun _ => Or.inr ⟨a, waits, rfl⟩⟩
  exact absurd (UInt64.le_trans (first b) dueB) (UInt64.not_le.mpr notDue)

/-- **The next expire time of one link.** -/
theorem Waiting.expires (waiting : Waiting head deadline s nodes)
    (cyclePerTick usPerTick startTime : UInt64) {fuel : Nat} (enough : nodes.length ≤ fuel) :
    ∃ time, osGetSortLinkNextExpireTime cyclePerTick usPerTick s fuel head startTime = some time ∧
      Expires cyclePerTick usPerTick startTime deadline time := by
  have empty := waiting.empty
  have next := waiting.next
  cases nodes with
  | nil =>
      have idle : ∀ a, deadline a = osSortLinkInvalidTime := fun a =>
        not_not.mp fun waits => List.not_mem_nil ((waiting.waits a).mpr waits)
      refine ⟨_, ?_, expires_idle cyclePerTick usPerTick startTime idle⟩
      simp only [osGetSortLinkNextExpireTime, next, Option.bind_eq_bind, Option.bind_some,
        empty.mpr rfl, if_true]
      rfl
  | cons a rest =>
      have notEmpty : losListEmpty s.links head = false := by
        rw [Bool.eq_false_iff]
        exact fun isEmpty => List.cons_ne_nil a rest (empty.mp isEmpty)
      obtain ⟨spare, fuelIs⟩ : ∃ spare, fuel = (a :: rest).length + spare :=
        ⟨fuel - (a :: rest).length, by omega⟩
      have scanned := waiting.scanExpire_eq startTime spare (List.nil_append (a :: rest)).symm 0
      have firstIs : firstOf head (a :: rest) = a := rfl
      rw [← fuelIs] at scanned
      refine ⟨expireTime usPerTick (if deadline a ≤ startTime then startTime else 0)
        (firstLater deadline startTime (a :: rest)), ?_, ?_⟩
      · simp only [osGetSortLinkNextExpireTime, next, firstIs, Option.bind_eq_bind,
          Option.bind_some, notEmpty, Bool.false_eq_true, if_false, scanned, expireTime,
          Option.pure_def, apply_ite some]
      · by_cases due : deadline a ≤ startTime
        · rw [if_pos due]
          rcases waiting.firstLater_spec startTime with ⟨none, -⟩ | ⟨after, first⟩
          · exact expires_due cyclePerTick due (Or.inl none) fun b _ => none ▸ UInt64.zero_le
          · exact expires_due cyclePerTick due (Or.inr after) first
        · have first : firstLater deadline startTime (a :: rest) = deadline a := by
            simp [firstLater, due]
          rw [if_neg due, first, expireTime, if_pos rfl]
          exact waiting.expires_first cyclePerTick usPerTick rfl (UInt64.not_le.mp due)

/-- **The next expire time**, whatever was added to the two links and deleted from them: no
deadline after `startTime` is passed, one that is due is seen to within the time of a tick, and if
none is due it is the deadline of a node that waits, or the end of time for an empty link. -/
theorem next_expire (cyclePerTick usPerTick startTime : UInt64) (m m' : Links α) (head head' : α)
    {calls calls' : List (SortCall α)}
    (may : MayAll cyclePerTick head (fun _ => osSortLinkInvalidTime) calls)
    (may' : MayAll cyclePerTick head' (fun _ => osSortLinkInvalidTime) calls') :
    ∃ task swtmr time,
      runSortCalls cyclePerTick calls.length head
        ⟨losListInit m head, fun _ => osSortLinkInvalidTime⟩ calls = some task ∧
      runSortCalls cyclePerTick calls'.length head'
        ⟨losListInit m' head', fun _ => osSortLinkInvalidTime⟩ calls' = some swtmr ∧
      osGetNextExpireTime cyclePerTick usPerTick task swtmr (calls.length + calls'.length) head
        head' startTime = some time ∧
      (∀ link ∈ [task, swtmr],
        (∀ a, startTime < link.responseTime a → time ≤ link.responseTime a) ∧
        (startTime ≠ 0 → ∀ a, link.responseTime a ≤ startTime →
          time.toNat ≤ startTime.toNat + usPerTick.toNat)) ∧
      ((∀ link ∈ [task, swtmr], ∀ a, startTime < link.responseTime a) →
        (time = osSchedMaxResponseTime - cyclePerTick ∧
          ∃ link ∈ [task, swtmr], ∀ a, link.responseTime a = osSortLinkInvalidTime) ∨
        ∃ link ∈ [task, swtmr], ∃ a, link.responseTime a ≠ osSortLinkInvalidTime ∧
          time = link.responseTime a) := by
  have enough : ∀ l : List (SortCall α), ([] : List α).length + l.length ≤ l.length := by simp
  obtain ⟨task, nodes, ran, waiting, length⟩ := (Waiting.init m head).calls may (enough calls)
  obtain ⟨swtmr, nodes', ran', waiting', length'⟩ :=
    (Waiting.init m' head').calls may' (enough calls')
  obtain ⟨taskTime, taskRuns, task'⟩ := waiting.expires cyclePerTick usPerTick startTime
    (Nat.le_trans length (Nat.le_add_right _ calls'.length))
  obtain ⟨swtmrTime, swtmrRuns, swtmr'⟩ := waiting'.expires cyclePerTick usPerTick startTime
    (Nat.le_trans length' (Nat.le_add_left _ calls.length))
  rw [← waiting.times] at task'
  rw [← waiting'.times] at swtmr'
  refine ⟨task, swtmr, if taskTime < swtmrTime then taskTime else swtmrTime, ran, ran', ?_, ?_, ?_⟩
  · simp only [osGetNextExpireTime, taskRuns, swtmrRuns, Option.bind_eq_bind, Option.bind_some]
    rfl
  · have least : (if taskTime < swtmrTime then taskTime else swtmrTime) ≤ taskTime ∧
        (if taskTime < swtmrTime then taskTime else swtmrTime) ≤ swtmrTime := by
      split
      case isTrue first => exact ⟨UInt64.le_refl _, UInt64.le_of_lt first⟩
      case isFalse last => exact ⟨UInt64.not_lt.mp last, UInt64.le_refl _⟩
    generalize (if taskTime < swtmrTime then taskTime else swtmrTime) = time at least ⊢
    have atMost := UInt64.le_iff_toNat_le.mp least.1
    have atMost' := UInt64.le_iff_toNat_le.mp least.2
    refine List.forall_mem_cons.mpr ⟨⟨?_, ?_⟩, List.forall_mem_singleton.mpr ⟨?_, ?_⟩⟩
    · exact fun a after => UInt64.le_trans least.1 (task'.early a after)
    · exact fun notZero a due => Nat.le_trans atMost (task'.soon notZero a due)
    · exact fun a after => UInt64.le_trans least.2 (swtmr'.early a after)
    · exact fun notZero a due => Nat.le_trans atMost' (swtmr'.soon notZero a due)
  · intro noneDue
    rw [List.forall_mem_cons, List.forall_mem_singleton] at noneDue
    simp only [List.exists_mem_cons_iff, List.not_mem_nil, false_and, exists_false, or_false]
    split
    · exact (task'.exact noneDue.1).imp (And.imp_right Or.inl) Or.inl
    · exact (swtmr'.exact noneDue.2).imp (And.imp_right Or.inr) Or.inr

/-- A task waits till 150, and at 90 the timer is set to that. -/
theorem next_expire_waits :
    ∃ (task swtmr : SortLink Nat) (time : UInt64),
      osGetNextExpireTime 10 100 task swtmr 1 0 9 90 = some time ∧ time ≤ 150 := by
  have may : MayAll 10 0 (fun _ => osSortLinkInvalidTime) [SortCall.add 1 100 5] :=
    ⟨⟨by decide, rfl, by decide⟩, trivial⟩
  obtain ⟨task, swtmr, time, ran, -, expires, seen, -⟩ :=
    next_expire 10 100 90 ⟨fun _ => none, fun _ => none⟩ ⟨fun _ => none, fun _ => none⟩ 0 9 may
      (show MayAll 10 9 (fun _ => osSortLinkInvalidTime) [] from trivial)
  obtain ⟨early, -⟩ := seen task List.mem_cons_self
  have deadline : task.responseTime 1 = 150 := by
    cases ran
    rfl
  refine ⟨task, swtmr, time, expires, ?_⟩
  rw [← deadline]
  refine early 1 ?_
  rw [deadline]
  decide

end Runs

end EinkLiteOS.Kernel
