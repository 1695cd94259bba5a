/-
# Kernel.Event -- the events

`kernel/src/los_event.c`.  A task that reads an event polls it, and waits in its list if the bits
are not there; a write walks along the list and wakes the readers whose bits are there now.  Its
test looks at the new bits only when a reader waits for any of its bits, but no reader that the
poll would satisfy is left in the list (`wakes_iff`, `Good.eventWrite`).
-/
import EinkLiteOS.Kernel.Task

namespace EinkLiteOS.Kernel

open EinkLiteOS.Theory EinkLiteOS.Theory.RingList

set_option autoImplicit false

def losModEvent : BitVec 32 := 0x1c#32
def losErrnoEventSetbitInvalid : BitVec 32 := losErrnoOsError losModEvent 0x00#32
def losErrnoEventReadTimeout : BitVec 32 := losErrnoOsError losModEvent 0x01#32
def losErrnoEventEventmaskInvalid : BitVec 32 := losErrnoOsError losModEvent 0x02#32
def losErrnoEventReadInInterrupt : BitVec 32 := losErrnoOsError losModEvent 0x03#32
def losErrnoEventFlagsInvalid : BitVec 32 := losErrnoOsError losModEvent 0x04#32
def losErrnoEventReadInLock : BitVec 32 := losErrnoOsError losModEvent 0x05#32

/-- `LOS_WAITMODE_CLR` -/
def losWaitmodeClr : BitVec 32 := 1#32
/-- `LOS_WAITMODE_OR` -/
def losWaitmodeOr : BitVec 32 := 2#32
/-- `LOS_WAITMODE_AND` -/
def losWaitmodeAnd : BitVec 32 := 4#32

/-! ## The functions -/

/-- `LOS_EventPoll`: what it returns, and the bits it leaves. -/
def losEventPoll (eventID eventMask mode : BitVec 32) : BitVec 32 × BitVec 32 :=
  let ret :=
    if mode &&& losWaitmodeOr ≠ 0#32 then
      if eventID &&& eventMask ≠ 0#32 then eventID &&& eventMask else 0#32
    else
      if eventMask ≠ 0#32 ∧ eventMask = eventID &&& eventMask then eventID &&& eventMask else 0#32
  (ret, if ret ≠ 0#32 ∧ mode &&& losWaitmodeClr ≠ 0#32 then eventID &&& ~~~ret else eventID)

/-- `OsEventReadParamCheck`, of an event that is initialised. -/
def osEventReadParamCheck (eventMask mode : BitVec 32) : BitVec 32 :=
  if eventMask = 0#32 then losErrnoEventEventmaskInvalid
  else if eventMask &&& losErrtypeError ≠ 0#32 then losErrnoEventSetbitInvalid
  else if (mode &&& losWaitmodeOr ≠ 0#32 ∧ mode &&& losWaitmodeAnd ≠ 0#32) ∨
      mode &&& ~~~(losWaitmodeOr ||| losWaitmodeAnd ||| losWaitmodeClr) ≠ 0#32 ∨
      mode &&& (losWaitmodeOr ||| losWaitmodeAnd) = 0#32 then losErrnoEventFlagsInvalid
  else losOk

/-- What a call leaves, and the bits of the event. -/
structure EventOutcome where
  outcome : Outcome
  uwEventID : BitVec 32

/-- `LOS_EventRead`, until it returns or calls `LOS_Schedule` to wait. -/
def losEventRead (s : Sched) (uwEventID : BitVec 32) (event : Nat) (intActive : Bool)
    (eventMask mode : BitVec 32) (timeOut : UInt32) : Option EventOutcome :=
  let ret := osEventReadParamCheck eventMask mode
  if ret ≠ losOk then some ⟨s.refuse ret, uwEventID⟩
  else if intActive then some ⟨s.refuse losErrnoEventReadInInterrupt, uwEventID⟩
  else
    let (ret, uwEventID) := losEventPoll uwEventID eventMask mode
    if ret ≠ 0#32 then some ⟨⟨s, ret, false⟩, uwEventID⟩
    else if timeOut = 0 then some ⟨⟨s, ret, false⟩, uwEventID⟩
    else if s.taskLock ≠ 0 then some ⟨s.refuse losErrnoEventReadInLock, uwEventID⟩
    else do
      let s := s.setTask s.runTask ({ · with eventMask, eventMode := mode })
      let s ← osSchedTaskWait s (.eventList event) timeOut
      return ⟨⟨s, ret, true⟩, uwEventID⟩

/-- The rest of `LOS_EventRead`, when the task has the processor again. -/
def losEventReadRest (s : Sched) (uwEventID : BitVec 32) (runTsk : Nat)
    (eventMask mode : BitVec 32) : EventOutcome :=
  if (s.task runTsk).taskStatus.timeout then
    ⟨⟨s.setStatus runTsk ({ · with timeout := false }), losErrnoEventReadTimeout, false⟩, uwEventID⟩
  else
    let (ret, uwEventID) := losEventPoll uwEventID eventMask mode
    ⟨⟨s, ret, false⟩, uwEventID⟩

/-- The test of `LOS_EventWrite`, that it wakes a reader. -/
def LosTaskCB.wakes (resumedTask : LosTaskCB) (uwEventID events : BitVec 32) : Bool :=
  (resumedTask.eventMode &&& losWaitmodeOr ≠ 0#32 && resumedTask.eventMask &&& events ≠ 0#32) ||
    (resumedTask.eventMode &&& losWaitmodeAnd ≠ 0#32 &&
      resumedTask.eventMask &&& uwEventID = resumedTask.eventMask)

/-- The loop of `LOS_EventWrite`, as far as the fuel lasts. -/
def wakeReaders (c : KernelConfig) (event : Nat) (uwEventID events : BitVec 32) :
    Nat → Sched → Node → Bool → Option (Sched × Bool)
  | 0, _, _, _ => none
  | fuel + 1, s, node, exitFlag =>
      if node = .eventList event then some (s, exitFlag)
      else do
        let resumedTask ← node.tcb
        let nextTask ← s.links.next node
        if (s.task resumedTask).wakes uwEventID events then
          let s ← osSchedTaskWake c s resumedTask
          wakeReaders c event uwEventID events fuel s nextTask true
        else wakeReaders c event uwEventID events fuel s nextTask exitFlag

/-- `LOS_EventWrite`, of an event that is initialised. -/
def losEventWrite (c : KernelConfig) (s : Sched) (uwEventID : BitVec 32) (event : Nat)
    (events : BitVec 32) : Option EventOutcome :=
  if events &&& losErrtypeError ≠ 0#32 then some ⟨s.refuse losErrnoEventSetbitInvalid, uwEventID⟩
  else
    let uwEventID := uwEventID ||| events
    if !losListEmpty s.links (.eventList event) then do
      let resumedTask ← s.links.next (.eventList event)
      let (s, exitFlag) ←
        wakeReaders c event uwEventID events (c.taskMaxNum + 1) s resumedTask false
      return ⟨⟨s, losOk, exitFlag⟩, uwEventID⟩
    else some ⟨⟨s, losOk, false⟩, uwEventID⟩

/-- `LOS_EventClear` -/
def losEventClear (uwEventID eventMask : BitVec 32) : BitVec 32 := uwEventID &&& eventMask

/-! ## What a reader waits for -/

/-- The poll finds the bits. -/
def Satisfied (uwEventID eventMask mode : BitVec 32) : Prop :=
  (losEventPoll uwEventID eventMask mode).1 ≠ 0#32

instance (uwEventID eventMask mode : BitVec 32) : Decidable (Satisfied uwEventID eventMask mode) :=
  inferInstanceAs (Decidable (_ ≠ _))

section Bits

variable {uwEventID events eventMask mode : BitVec 32}

theorem readParamCheck_ok (valid : osEventReadParamCheck eventMask mode = losOk) :
    eventMask ≠ 0#32 ∧ eventMask &&& losErrtypeError = 0#32 ∧
      (mode &&& losWaitmodeOr ≠ 0#32 ↔ mode &&& losWaitmodeAnd = 0#32) := by
  rw [osEventReadParamCheck] at valid
  split at valid
  case isTrue => cases valid
  case isFalse some =>
    split at valid
    case isTrue => cases valid
    case isFalse noError =>
      split at valid
      case isTrue => cases valid
      case isFalse flags =>
        push Not at flags
        obtain ⟨notBoth, -, notNone⟩ := flags
        refine ⟨some, not_not.mp noError, notBoth, fun noAnd noOr => ?_⟩
        have split : mode &&& (losWaitmodeOr ||| losWaitmodeAnd) =
            (mode &&& losWaitmodeOr) ||| (mode &&& losWaitmodeAnd) := BitVec.and_or_distrib_left
        rw [noAnd, noOr] at split
        exact notNone split

/-- What a reader of any of the bits finds. -/
theorem satisfied_or (isOr : mode &&& losWaitmodeOr ≠ 0#32) :
    Satisfied uwEventID eventMask mode ↔ uwEventID &&& eventMask ≠ 0#32 := by
  simp only [Satisfied, losEventPoll, if_pos isOr]
  split
  case isTrue some => exact iff_of_true some some
  case isFalse none => exact iff_of_false (not_not_intro rfl) none

/-- What a reader of all of the bits finds. -/
theorem satisfied_and (notOr : ¬ mode &&& losWaitmodeOr ≠ 0#32) (some : eventMask ≠ 0#32) :
    Satisfied uwEventID eventMask mode ↔ eventMask &&& uwEventID = eventMask := by
  simp only [Satisfied, losEventPoll, if_neg notOr]
  rw [BitVec.and_comm uwEventID eventMask]
  split
  case isTrue all => exact iff_of_true (all.2 ▸ all.1) all.2.symm
  case isFalse notAll => exact iff_of_false (not_not_intro rfl) fun all => notAll ⟨some, all.symm⟩

/-- **The test of a write is the poll**, for a reader that had to wait. -/
theorem wakes_iff {resumedTask : LosTaskCB}
    (valid : osEventReadParamCheck resumedTask.eventMask resumedTask.eventMode = losOk)
    (waits : ¬ Satisfied uwEventID resumedTask.eventMask resumedTask.eventMode) :
    resumedTask.wakes (uwEventID ||| events) events = true ↔
      Satisfied (uwEventID ||| events) resumedTask.eventMask resumedTask.eventMode := by
  obtain ⟨some, -, modes⟩ := readParamCheck_ok valid
  rw [LosTaskCB.wakes]
  by_cases isOr : resumedTask.eventMode &&& losWaitmodeOr ≠ 0#32
  · have notAnd := modes.mp isOr
    have none : uwEventID &&& resumedTask.eventMask = 0#32 :=
      not_not.mp fun found => waits ((satisfied_or isOr).mpr found)
    have found : (uwEventID ||| events) &&& resumedTask.eventMask =
        events &&& resumedTask.eventMask := by
      rw [BitVec.and_or_distrib_right, none, BitVec.zero_or]
    rw [satisfied_or isOr, found, BitVec.and_comm events]
    simp [isOr, notAnd]
  · have isAnd : ¬ resumedTask.eventMode &&& losWaitmodeAnd = 0#32 := fun notAnd =>
      isOr (modes.mpr notAnd)
    rw [satisfied_and isOr some]
    simp [not_not.mp isOr, isAnd]

/-- The bits of the one are bits of the other. -/
def Below (a b : BitVec 32) : Prop := a &&& b = a

/-- With more bits, a reader finds what it found. -/
theorem Satisfied.mono {a b : BitVec 32} (satisfied : Satisfied a eventMask mode)
    (below : Below a b) : Satisfied b eventMask mode := by
  rw [Below] at below
  by_cases isOr : mode &&& losWaitmodeOr ≠ 0#32
  · rw [satisfied_or isOr] at satisfied ⊢
    intro none
    rw [← below, BitVec.and_assoc, none, BitVec.and_zero] at satisfied
    exact satisfied rfl
  · by_cases some : eventMask = 0#32
    · subst some
      exact absurd (by simp [losEventPoll]) satisfied
    · rw [satisfied_and isOr some] at satisfied ⊢
      rw [← satisfied, BitVec.and_assoc, below]

theorem below_clear (a eventMask : BitVec 32) : Below (losEventClear a eventMask) a := by
  rw [Below, losEventClear]
  ext i inside
  simp
  tauto

/-- A poll sets no bits. -/
theorem below_poll (a eventMask mode : BitVec 32) : Below (losEventPoll a eventMask mode).2 a := by
  obtain ⟨ret, left⟩ : ∃ ret : BitVec 32, (losEventPoll a eventMask mode).2 =
      if ret ≠ 0#32 ∧ mode &&& losWaitmodeClr ≠ 0#32 then a &&& ~~~ret else a := ⟨_, rfl⟩
  rw [left]
  split
  · exact below_clear a _
  · exact BitVec.and_self

end Bits

/-! ## `LOS_EventWrite` -/

/-- The record of a task that waits for bits that are there. -/
def Record.Finds (uwEventID : BitVec 32) (r : Record) : Prop :=
  Satisfied uwEventID r.tcb.eventMask r.tcb.eventMode

instance (uwEventID : BitVec 32) (r : Record) : Decidable (r.Finds uwEventID) :=
  inferInstanceAs (Decidable (Satisfied _ _ _))

/-- Of these readers, those that find their bits are awake in the other view. -/
structure Woken (c : KernelConfig) (readers : Nat → Prop) (uwEventID : BitVec 32) (v v' : View) :
    Prop where
  awake : ∀ taskID, readers taskID → (v.record taskID).Finds uwEventID →
    v'.record taskID = (v.record taskID).wake c taskID
  others : ∀ taskID, ¬ (readers taskID ∧ (v.record taskID).Finds uwEventID) →
    v'.record taskID = v.record taskID
  globals : v'.globals = v.globals

section Write

variable {c : KernelConfig} {s : Sched} {v : View} {event : Nat} {uwEventID events : BitVec 32}

/-- Every reader in the list waits for bits that are not there. -/
def View.Readers (v : View) (event : Nat) (uwEventID : BitVec 32) : Prop :=
  ∀ taskID, (v.record taskID).stands (.eventList event) →
    osEventReadParamCheck (v.record taskID).tcb.eventMask (v.record taskID).tcb.eventMode = losOk ∧
      ¬ (v.record taskID).Finds uwEventID

/-- One reader is woken, and then those behind it. -/
theorem Woken.wake {v₁ v' : View} {t : Nat} {back : List Nat}
    (acts : Acts v v₁ t (Record.wake c t)) (finds : (v.record t).Finds uwEventID)
    (notBack : t ∉ back) (woken : Woken c (· ∈ back) uwEventID v₁ v') :
    Woken c (· ∈ t :: back) uwEventID v v' := by
  refine ⟨fun u member found => ?_, fun u not => ?_, woken.globals.trans (acts_globals acts)⟩
  · by_cases here : u = t
    · subst here
      rw [woken.others u fun both => notBack both.1, acts_here acts]
    · have same := acts_others acts here
      rw [woken.awake u ((List.mem_cons.mp member).resolve_left here) (same ▸ found), same]
  · have other : u ≠ t := by
      rintro rfl
      exact not ⟨List.mem_cons_self, finds⟩
    have same := acts_others acts other
    rw [woken.others u fun both => not ⟨List.mem_cons_of_mem t both.1, same ▸ both.2⟩, same]

/-- One reader is left, and those behind it are woken. -/
theorem Woken.skip {v' : View} {t : Nat} {back : List Nat}
    (finds : ¬ (v.record t).Finds uwEventID) (woken : Woken c (· ∈ back) uwEventID v v') :
    Woken c (· ∈ t :: back) uwEventID v v' := by
  refine ⟨fun u member found => ?_, fun u not => woken.others u fun both => ?_, woken.globals⟩
  · rcases List.mem_cons.mp member with rfl | behind
    · exact absurd found finds
    · exact woken.awake u behind found
  · exact not ⟨List.mem_cons_of_mem t both.1, both.2⟩

/-- One reader leaves the list. -/
theorem Good.wakeReader (good : Good c s v (some v.runTask)) {front back : List Nat} {t : Nat}
    (tasks : v.queue (.eventList event) = front ++ t :: back) :
    ∃ s' v', osSchedTaskWake c s t = some s' ∧ Good c s' v' (some v'.runTask) ∧
      Acts v v' t (Record.wake c t) ∧ v'.queue (.eventList event) = front ++ back := by
  have stands : (v.record t).stands (.eventList event) := by
    show t ∈ v.queue (.eventList event)
    rw [tasks]
    exact List.mem_append_right front List.mem_cons_self
  have start : At v t s (v.record t) := Layout.At.start good.shows t
  have ok := good.consistent.ok t
  have pend : (v.record t).status.pend = true := ok.pend.mp ⟨.eventList event, trivial, stands⟩
  have used := ok.flags.used (Or.inl pend)
  have running : (v.record t).status.running = true ↔ some v.runTask = some t := by
    rw [good.consistent.isRunTask (ok.inside used).2, decide_eq_true_eq, Option.some.injEq]
    exact eq_comm
  obtain ⟨s', v', woken, good', acts⟩ := good.consistent.keeps
    (gives_osSchedTaskWake (c := c) start ok pend) (Record.wake_running _) (ok.wake pend running)
  have runTask := acts_runTask acts
  rw [← runTask] at good'
  refine ⟨s', v', woken, good', acts.congr rfl,
    acts_leaves acts (good.shows.nodup _) tasks fun member => ?_⟩
  have still : (v'.record t).stands (.eventList event) := member
  rw [acts_here acts] at still
  exact Record.wake_stands _ (h := .eventList event) trivial still

/-- **The loop of `LOS_EventWrite`** wakes the readers from a node on that find their bits.  The
pointer to the next node is read before the reader leaves the list. -/
theorem Good.wakeLoop (good : Good c s v (some v.runTask)) (uwEventID events : BitVec 32)
    {front rest : List Nat}
    (tasks : v.queue (.eventList event) = front ++ rest)
    (test : ∀ t ∈ rest, (v.record t).tcb.wakes uwEventID events = true ↔
      (v.record t).Finds uwEventID)
    {fuel : Nat} (enough : rest.length < fuel) (exitFlag : Bool) :
    ∃ s' v' woke,
      wakeReaders c event uwEventID events fuel s ((rest.map Node.pendList).headD (.eventList event))
        exitFlag = some (s', exitFlag || woke) ∧
      Good c s' v' (some v'.runTask) ∧ Woken c (· ∈ rest) uwEventID v v' ∧
      (woke = true ↔ ∃ t ∈ rest, (v.record t).Finds uwEventID) := by
  induction rest generalizing s v front fuel exitFlag with
  | nil =>
      obtain ⟨fuel, rfl⟩ : ∃ k, fuel = k + 1 := ⟨fuel - 1, by omega⟩
      refine ⟨s, v, false, ?_, good, ⟨fun t member => ?_, fun _ _ => rfl, rfl⟩, by simp⟩
      · rw [wakeReaders, List.map_nil, List.headD_nil, if_pos rfl, Bool.or_false]
      · exact absurd member List.not_mem_nil
  | cons t back ih =>
      obtain ⟨fuel, rfl⟩ : ∃ k, fuel = k + 1 := ⟨fuel - 1, by omega⟩
      have next := good.shows.queues.next (h := .eventList event) trivial tasks
      have nodup := good.shows.nodup (.eventList event)
      rw [tasks] at nodup
      have notBack : t ∉ back := (List.nodup_cons.mp (List.nodup_append.mp nodup).2.1).1
      have enough' : back.length < fuel := by
        rw [List.length_cons] at enough
        omega
      have start : At v t s (v.record t) := Layout.At.start good.shows t
      rw [wakeReaders, List.map_cons, List.headD_cons, if_neg Node.noConfusion, next]
      simp only [Node.tcb, Option.bind_eq_bind, Option.bind_some, at_tcb start]
      have tested := test t List.mem_cons_self
      by_cases finds : (v.record t).Finds uwEventID
      · obtain ⟨s₁, v₁, ran₁, good₁, acts, tasks₁⟩ := good.wakeReader tasks
        have others : ∀ u ∈ back, v₁.record u = v.record u := fun u member =>
          acts_others acts (ne_of_mem_of_not_mem member notBack)
        obtain ⟨s', v', woke, ran, good', woken, -⟩ := ih good₁ tasks₁
          (fun u member => by rw [others u member]; exact test u (List.mem_cons_of_mem t member))
          enough' true
        refine ⟨s', v', true, ?_, good', woken.wake acts finds notBack,
          iff_of_true rfl ⟨t, List.mem_cons_self, finds⟩⟩
        rw [if_pos (tested.mpr finds), ran₁, Option.bind_some, ran]
        simp
      · obtain ⟨s', v', woke, ran, good', woken, wakes⟩ :=
          ih good (tasks.trans (List.append_cons front t back))
            (fun u member => test u (List.mem_cons_of_mem t member)) enough' exitFlag
        rw [if_neg fun wakes => finds (tested.mp wakes)]
        refine ⟨s', v', woke, ran, good', woken.skip finds, ?_⟩
        rw [wakes, List.exists_mem_cons_iff, or_iff_right finds]

/-- **`LOS_EventWrite`** wakes the readers whose bits are there now, all of them and no others. -/
theorem Good.eventWrite (good : Good c s v (some v.runTask)) (readers : v.Readers event uwEventID)
    (noError : events &&& losErrtypeError = 0#32) :
    ∃ s' v' woke,
      losEventWrite c s uwEventID event events =
        some ⟨⟨s', losOk, woke⟩, uwEventID ||| events⟩ ∧
      Good c s' v' (some v'.runTask) ∧
      Woken c (fun t => (v.record t).stands (.eventList event)) (uwEventID ||| events) v v' ∧
      (woke = true ↔ ∃ taskID, (v.record taskID).stands (.eventList event) ∧
        (v.record taskID).Finds (uwEventID ||| events)) := by
  have isHead : (Node.eventList event).IsHead := trivial
  have empty := good.shows.queues.empty isHead
  rw [losEventWrite, if_neg (not_not_intro noError)]
  cases tasks : v.queue (.eventList event) with
  | nil =>
      have nobody : ∀ t, ¬ (v.record t).stands (.eventList event) := fun t stands => by
        have member : t ∈ v.queue (.eventList event) := stands
        rw [tasks] at member
        exact List.not_mem_nil member
      rw [empty.mpr tasks]
      refine ⟨s, v, false, rfl, good, ⟨fun t stands => absurd stands (nobody t), ?_, rfl⟩, ?_⟩
      · exact fun _ _ => rfl
      · refine iff_of_false Bool.false_ne_true ?_
        rintro ⟨t, stands, -⟩
        exact nobody t stands
  | cons first rest =>
      have notEmpty := good.shows.queues.notEmpty isHead (tasks ▸ List.cons_ne_nil first rest)
      have next := good.shows.queues.first isHead tasks
      have inRange : v.queue (.eventList event) ⊆ List.range c.taskMaxNum := fun t member => by
        have ok := good.consistent.ok t
        have pend := ok.pend.mp ⟨.eventList event, trivial, member⟩
        exact List.mem_range.mpr (ok.inside (ok.flags.used (Or.inl pend))).2
      have least := (List.Nodup.subperm (good.shows.nodup _) inRange).length_le
      rw [List.length_range, tasks] at least
      have inList : ∀ t, t ∈ first :: rest ↔ (v.record t).stands (.eventList event) := fun t => by
        rw [← tasks]
        exact Iff.rfl
      obtain ⟨s', v', woke, ran, good', woken, wakes⟩ :=
        good.wakeLoop (uwEventID ||| events) events
          (tasks.trans (List.nil_append _).symm)
          (fun t member => by
            obtain ⟨valid, waits⟩ := readers t ((inList t).mp member)
            exact wakes_iff valid waits) (Nat.lt_succ_of_le least) false
      rw [notEmpty]
      refine ⟨s', v', woke, ?_, good', ⟨fun t stands => ?_, fun t not => ?_, woken.globals⟩, ?_⟩
      · simp only [Bool.not_false, if_true, next, Option.bind_eq_bind, Option.bind_some]
        rw [show Node.pendList first = ((first :: rest).map Node.pendList).headD (.eventList event)
          from rfl, ran, Bool.false_or]
        rfl
      · exact woken.awake t ((inList t).mpr stands)
      · exact woken.others t fun both => not ⟨(inList t).mp both.1, both.2⟩
      · rw [wakes]
        exact exists_congr fun t => and_congr_left fun _ => inList t

end Write

end EinkLiteOS.Kernel
