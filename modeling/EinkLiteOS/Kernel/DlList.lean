/-
# Kernel.DlList -- the kernel's lists

`utils/los_list.h`: the doubly linked lists that every queue of the kernel is made of.  The
functions write pointers; that a null pointer is followed is `none`.  What they are for is a
table of lists, `Lists`, with an operation for each function.

Whatever calls are made of them, in whatever order, as long as a node is not put into two
lists and none is taken out of no list, the pointers hold the lists of the table
(`lists_hold`), and a walk along them visits these nodes (`Holds.visits`).  A list may be
given up at any time; its head and its nodes are in no list then, and may be used anew.
-/
import EinkLiteOS.Theory.RingList

namespace EinkLiteOS.Kernel

open EinkLiteOS.Theory.RingList

set_option autoImplicit false

variable {α : Type} [DecidableEq α]

/-! ## The functions -/

/-- `LOS_ListInit` -/
def losListInit (m : Links α) (list : α) : Links α where
  next := Function.update m.next list (some list)
  prev := Function.update m.prev list (some list)

/-- `LOS_ListAdd` -/
def losListAdd (m : Links α) (list node : α) : Option (Links α) := do
  let first ← m.next list
  return {
    next := Function.update (Function.update m.next node (some first)) list (some node)
    prev := Function.update (Function.update m.prev node (some list)) first (some node) }

/-- `LOS_ListTailInsert` -/
def losListTailInsert (m : Links α) (list node : α) : Option (Links α) := do
  losListAdd m (← m.prev list) node

/-- `LOS_ListDelete` -/
def losListDelete (m : Links α) (node : α) : Option (Links α) := do
  let next ← m.next node
  let prev ← m.prev node
  return {
    next := Function.update (Function.update m.next prev (some next)) node none
    prev := Function.update (Function.update m.prev next (some prev)) node none }

/-- `LOS_ListDelInit` -/
def losListDelInit (m : Links α) (list : α) : Option (Links α) := do
  let next ← m.next list
  let prev ← m.prev list
  return losListInit {
    next := Function.update m.next prev (some next)
    prev := Function.update m.prev next (some prev) } list

/-- `LOS_ListEmpty` -/
def losListEmpty (m : Links α) (list : α) : Bool := m.next list = some list

/-- The nodes `LOS_DL_LIST_FOR_EACH` visits from `item` on, as far as the fuel lasts. -/
def forEach (m : Links α) (list : α) : Nat → α → Option (List α)
  | 0, _ => none
  | fuel + 1, item =>
      if item = list then some []
      else do
        let rest ← forEach m list fuel (← m.next item)
        return item :: rest

/-! ## The table -/

/-- Some lists: the heads, and the nodes of each. -/
structure Lists (α : Type) where
  heads : Set α
  nodes : α → List α

/-- No list holds the address, as its head or as a node. -/
def Lists.Free (t : Lists α) (a : α) : Prop := ∀ h ∈ t.heads, a ∉ h :: t.nodes h

/-- The table with other nodes in one list. -/
def Lists.set (t : Lists α) (h : α) (nodes : List α) : Lists α :=
  { t with nodes := Function.update t.nodes h nodes }

/-- The table with one more head. -/
def Lists.open (t : Lists α) (h : α) : Lists α :=
  { heads := insert h t.heads, nodes := Function.update t.nodes h [] }

/-- The table without the list at `h`. -/
def Lists.giveUp (t : Lists α) (h : α) : Lists α := { t with heads := t.heads \ {h} }

/-- A call of one of the functions. -/
inductive ListCall (α : Type) where
  | init (list : α)
  | add (list node : α)
  | tailInsert (list node : α)
  | delete (node : α)
  | delInit (node : α)

/-- The call on the pointers. -/
def ListCall.run (m : Links α) : ListCall α → Option (Links α)
  | init list => some (losListInit m list)
  | add list node => losListAdd m list node
  | tailInsert list node => losListTailInsert m list node
  | delete node => losListDelete m node
  | delInit node => losListDelInit m node

/-- The calls on the pointers, one after the other. -/
def runCalls (m : Links α) : List (ListCall α) → Option (Links α)
  | [] => some m
  | call :: rest => do runCalls (← call.run m) rest

/-- What a call is for, and when it may be made. -/
inductive Does (t : Lists α) : ListCall α → Lists α → Prop where
  | init {list : α} (free : t.Free list) : Does t (.init list) (t.open list)
  | add {list node : α} (isHead : list ∈ t.heads) (free : t.Free node) :
      Does t (.add list node) (t.set list (node :: t.nodes list))
  | addBehind {h list node : α} {front back : List α} (isHead : h ∈ t.heads) (free : t.Free node)
      (holds : t.nodes h = front ++ list :: back) :
      Does t (.add list node) (t.set h (front ++ list :: node :: back))
  | tailInsert {list node : α} (isHead : list ∈ t.heads) (free : t.Free node) :
      Does t (.tailInsert list node) (t.set list (t.nodes list ++ [node]))
  | tailInsertBefore {h list node : α} {front back : List α} (isHead : h ∈ t.heads)
      (free : t.Free node) (holds : t.nodes h = front ++ list :: back) :
      Does t (.tailInsert list node) (t.set h (front ++ node :: list :: back))
  | delete {h node : α} {front back : List α} (isHead : h ∈ t.heads)
      (holds : t.nodes h = front ++ node :: back) :
      Does t (.delete node) (t.set h (front ++ back))
  | delInit {h node : α} {front back : List α} (isHead : h ∈ t.heads)
      (holds : t.nodes h = front ++ node :: back) :
      Does t (.delInit node) ((t.set h (front ++ back)).open node)

/-- Calls one after the other; between them a list may be given up. -/
inductive DoesAll : Lists α → List (ListCall α) → Lists α → Prop where
  | nil (t : Lists α) : DoesAll t [] t
  | cons {t u v : Lists α} {call : ListCall α} {calls : List (ListCall α)} (does : Does t call u)
      (rest : DoesAll u calls v) : DoesAll t (call :: calls) v
  | giveUp {t v : Lists α} {calls : List (ListCall α)} (h : α)
      (rest : DoesAll (t.giveUp h) calls v) : DoesAll t calls v

/-- The pointers hold the lists. -/
def Holds (m : Links α) (t : Lists α) : Prop := Rings m t.heads t.nodes

/-! ## Where a call works -/

/-- What a node between neighbours leaves alone. -/
theorem between_elsewhere {m : Links α} {x node y a : α} (notNode : a ≠ node) (notX : a ≠ x)
    (notY : a ≠ y) :
    (m.between x node y).next a = m.next a ∧ (m.between x node y).prev a = m.prev a := by
  simp only [Links.between, Function.update_of_ne notX, Function.update_of_ne notY,
    Function.update_of_ne notNode, and_self]

theorem bridge_elsewhere {m : Links α} {x node y a : α} (notNode : a ≠ node) (notX : a ≠ x)
    (notY : a ≠ y) :
    (m.bridge x node y).next a = m.next a ∧ (m.bridge x node y).prev a = m.prev a := by
  simp only [Links.bridge, Function.update_of_ne notX, Function.update_of_ne notY,
    Function.update_of_ne notNode, and_self]

/-- **A free node goes into a list** between two neighbours of it. -/
theorem Holds.between {m : Links α} {t : Lists α} (holds : Holds m t) {h node x y : α}
    (nodes' : List α) {front back : List α} (isHead : h ∈ t.heads) (free : t.Free node)
    (split : h :: (t.nodes h ++ [h]) = front ++ x :: y :: back)
    (split' : h :: (nodes' ++ [h]) = front ++ x :: node :: y :: back)
    (perm : nodes'.Perm (node :: t.nodes h)) :
    losListAdd m x node = some (m.between x node y) ∧
      Holds (m.between x node y) (t.set h nodes') := by
  have ring := holds.ring h isHead
  have next := (ring.linked split).1
  have ends : ∀ a, a = x ∨ a = y → a ∈ h :: t.nodes h := by
    intro a isEnd
    have member : a ∈ h :: (t.nodes h ++ [h]) := by
      rw [split]
      rcases isEnd with rfl | rfl <;> simp
    simp only [List.mem_cons, List.mem_append, List.not_mem_nil, or_false] at member ⊢
    tauto
  refine ⟨by simp only [losListAdd, next]; rfl, ?_⟩
  refine holds.change isHead (fun h' isHead' _ => free h' isHead')
    (ring.insert (free h isHead) split split' perm) ?_ ?_
  · intro a member
    rcases List.mem_cons.mp member with rfl | inNodes
    · exact Or.inr List.mem_cons_self
    · rcases List.mem_cons.mp (perm.mem_iff.mp inNodes) with rfl | old
      · exact Or.inl rfl
      · exact Or.inr (List.mem_cons_of_mem h old)
  · intro a notNode outside
    exact between_elsewhere notNode (fun same => outside (ends a (Or.inl same)))
      (fun same => outside (ends a (Or.inr same)))

/-- **A node comes out of its list.** -/
theorem Holds.remove {m : Links α} {t : Lists α} (holds : Holds m t) {h node : α}
    {front back : List α} (isHead : h ∈ t.heads) (inList : t.nodes h = front ++ node :: back) :
    ∃ x y, m.next node = some y ∧ m.prev node = some x ∧ x ≠ node ∧ y ≠ node ∧
      Holds (m.bridge x node y) (t.set h (front ++ back)) ∧
      (t.set h (front ++ back)).Free node := by
  have ring := holds.ring h isHead
  obtain ⟨front', back', split, split'⟩ := cycle_around h node front back
  rw [← inList] at split
  have perm : (t.nodes h).Perm (node :: (front ++ back)) := by
    rw [inList]
    exact List.perm_middle
  obtain ⟨into, out, ring'⟩ := ring.remove split split' perm
  have gone : node ∉ h :: (front ++ back) := by
    have swap : (h :: t.nodes h).Perm (node :: h :: (front ++ back)) :=
      (perm.cons h).trans (List.Perm.swap node h _)
    exact (List.nodup_cons.mp (swap.nodup_iff.mp ring.nodup)).1
  have ends : ∀ a, a = lastOf h front ∨ a = firstOf h back → a ∈ h :: (front ++ back) := by
    intro a isEnd
    have member : a ∈ h :: ((front ++ back) ++ [h]) := by
      rw [split']
      rcases isEnd with rfl | rfl <;> simp
    simp only [List.mem_cons, List.mem_append, List.not_mem_nil, or_false] at member ⊢
    tauto
  have old : ∀ a ∈ h :: (front ++ back), a ∈ h :: t.nodes h := by
    intro a member
    rw [inList]
    simp only [List.mem_cons, List.mem_append] at member ⊢
    tauto
  have inRing : node ∈ h :: t.nodes h := by
    rw [inList]
    simp
  have elsewhere : ∀ h' ∈ t.heads, h' ≠ h → node ∉ h' :: t.nodes h' := by
    intro h' isHead' other
    exact holds.apart h isHead h' isHead' other.symm node inRing
  refine ⟨lastOf h front, firstOf h back, out.1, into.2, ?_, ?_, ?_, ?_⟩
  · exact fun same => gone (same ▸ ends _ (Or.inl rfl))
  · exact fun same => gone (same ▸ ends _ (Or.inr rfl))
  · refine holds.change isHead elsewhere ring' (fun a member => Or.inr (old a member)) ?_
    intro a notNode outside
    exact bridge_elsewhere notNode (fun same => outside (old a (ends a (Or.inl same))))
      (fun same => outside (old a (ends a (Or.inr same))))
  · intro h' isHead' member
    by_cases same : h' = h
    · subst same
      simp only [Lists.set, Function.update_self] at member
      exact gone member
    · simp only [Lists.set, Function.update_of_ne same] at member
      exact elsewhere h' isHead' same member

/-- **A free address becomes the head of an empty list.** -/
theorem Holds.open {m m' : Links α} {t : Lists α} (holds : Holds m t) {a : α} (free : t.Free a)
    (here : m'.next a = some a ∧ m'.prev a = some a)
    (elsewhere : ∀ b, b ≠ a → m'.next b = m.next b ∧ m'.prev b = m.prev b) :
    Holds m' (t.open a) := by
  have others : ∀ h ∈ t.heads, h ≠ a := fun h isHead same =>
    free h isHead (same ▸ List.mem_cons_self)
  constructor
  · intro h isHead
    simp only [Lists.open]
    rcases Set.mem_insert_iff.mp isHead with rfl | isHead
    · rw [Function.update_self]
      exact ⟨List.nodup_singleton h, List.isChain_pair.mpr here⟩
    · rw [Function.update_of_ne (others h isHead)]
      refine (holds.ring h isHead).congr ?_
      intro b member
      exact elsewhere b fun same => free h isHead (same ▸ member)
  · intro h isHead h' isHead' different b member
    simp only [Lists.open] at member ⊢
    rcases Set.mem_insert_iff.mp isHead with rfl | old
    · rcases Set.mem_insert_iff.mp isHead' with rfl | old'
      · exact absurd rfl different
      · rw [Function.update_self, List.mem_singleton] at member
        rw [Function.update_of_ne (others h' old'), member]
        exact free h' old'
    · rw [Function.update_of_ne (others h old)] at member
      rcases Set.mem_insert_iff.mp isHead' with rfl | old'
      · rw [Function.update_self, List.mem_singleton]
        rintro rfl
        exact free h old member
      · rw [Function.update_of_ne (others h' old')]
        exact holds.apart h old h' old' different b member

/-! ## The calls -/

/-- A node goes in behind another one. -/
theorem Holds.addBehind {m : Links α} {t : Lists α} (holds : Holds m t) {h list node : α}
    {front back : List α} (isHead : h ∈ t.heads) (free : t.Free node)
    (inList : t.nodes h = front ++ list :: back) :
    ∃ m', losListAdd m list node = some m' ∧
      Holds m' (t.set h (front ++ list :: node :: back)) := by
  obtain ⟨back', split⟩ := cycle_behind h list front back
  have split' : h :: ((front ++ list :: node :: back) ++ [h]) =
      (h :: front) ++ list :: node :: firstOf h back :: back' := by
    have tail : back ++ [h] = firstOf h back :: back' := by
      simpa using split
    simp [tail]
  have perm : (front ++ list :: node :: back).Perm (node :: (front ++ list :: back)) := by
    have middle : (front ++ [list] ++ node :: back).Perm (node :: (front ++ [list] ++ back)) :=
      List.perm_middle
    simpa using middle
  rw [← inList] at split perm
  exact ⟨_, holds.between _ isHead free split split' perm⟩

/-- A node goes in before another one, or last before the head. -/
theorem Holds.insertBefore {m : Links α} {t : Lists α} (holds : Holds m t) {h list node x : α}
    (nodes' : List α) {front back : List α} (isHead : h ∈ t.heads) (free : t.Free node)
    (split : h :: (t.nodes h ++ [h]) = front ++ x :: list :: back)
    (split' : h :: (nodes' ++ [h]) = front ++ x :: node :: list :: back)
    (perm : nodes'.Perm (node :: t.nodes h)) :
    ∃ m', losListTailInsert m list node = some m' ∧ Holds m' (t.set h nodes') := by
  have last := ((holds.ring h isHead).linked split).2
  obtain ⟨added, holds'⟩ := holds.between nodes' isHead free split split' perm
  refine ⟨_, ?_, holds'⟩
  simp only [losListTailInsert, last]
  exact added

/-- **One call.** -/
theorem Holds.call {m : Links α} {t u : Lists α} {call : ListCall α} (holds : Holds m t)
    (does : Does t call u) : ∃ m', call.run m = some m' ∧ Holds m' u := by
  cases does with
  | @init list free =>
      refine ⟨_, rfl, holds.open free ?_ ?_⟩
      · simp [losListInit]
      · intro b other
        simp [losListInit, Function.update_of_ne other]
  | @add list node isHead free =>
      obtain ⟨back, split⟩ := cycle_first list (t.nodes list)
      refine ⟨_, holds.between (node :: t.nodes list) isHead free split ?_ (List.Perm.refl _)⟩
      have cycle := (List.cons.inj split).2
      rw [List.nil_append, List.cons_append, cycle]
  | addBehind isHead free inList => exact holds.addBehind isHead free inList
  | @tailInsert list node isHead free =>
      obtain ⟨front, before, split⟩ := cycle_last list (t.nodes list)
      have split' : list :: ((t.nodes list ++ [node]) ++ [list]) =
          front ++ lastOf list (t.nodes list) :: node :: list :: [] := by
        rw [List.append_assoc, ← List.cons_append, before]
        simp
      exact holds.insertBefore _ isHead free split split' (List.perm_append_singleton node _)
  | @tailInsertBefore h list node front back isHead free inList =>
      obtain ⟨front', before, split⟩ := cycle_before h list front back
      have split' : h :: ((front ++ node :: list :: back) ++ [h]) =
          front' ++ lastOf h front :: node :: list :: (back ++ [h]) := by
        rw [List.append_assoc, ← List.cons_append, before]
        simp
      rw [← inList] at split
      refine holds.insertBefore _ isHead free split split' ?_
      rw [inList]
      exact List.perm_middle
  | @delete h node front back isHead inList =>
      obtain ⟨x, y, next, prev, -, -, holds', -⟩ := holds.remove isHead inList
      refine ⟨_, ?_, holds'⟩
      simp only [ListCall.run, losListDelete, next, prev]
      rfl
  | @delInit h node front back isHead inList =>
      obtain ⟨x, y, next, prev, notX, notY, holds', free⟩ := holds.remove isHead inList
      refine ⟨losListInit { next := Function.update m.next x (some y)
                            prev := Function.update m.prev y (some x) } node, ?_,
        holds'.open free ?_ ?_⟩
      · simp only [ListCall.run, losListDelInit, next, prev]
        rfl
      · simp [losListInit]
      · intro b other
        simp [losListInit, Links.bridge, Function.update_of_ne other]

/-- **No call of a sequence fails**, and the pointers hold what the sequence makes of the lists. -/
theorem Holds.calls {m : Links α} {t u : Lists α} {calls : List (ListCall α)} (holds : Holds m t)
    (does : DoesAll t calls u) : ∃ m', runCalls m calls = some m' ∧ Holds m' u := by
  induction does generalizing m with
  | nil t => exact ⟨m, rfl, holds⟩
  | cons does rest ih =>
      obtain ⟨m', called, holds'⟩ := holds.call does
      obtain ⟨m'', ran, holds''⟩ := ih holds'
      exact ⟨m'', by rw [runCalls, called]; exact ran, holds''⟩
  | giveUp h rest ih => exact ih (holds.subset fun h' member => member.1)

/-- **A walk along a list visits its nodes**, in their order, and `LOS_ListEmpty` says whether
there are any. -/
theorem Holds.visits {m : Links α} {t : Lists α} (holds : Holds m t) {h : α} (isHead : h ∈ t.heads) :
    (∃ first, m.next h = some first ∧
      forEach m h ((t.nodes h).length + 1) first = some (t.nodes h)) ∧
      (losListEmpty m h = true ↔ t.nodes h = []) := by
  have ring := holds.ring h isHead
  have walk : ∀ back front, t.nodes h = front ++ back →
      forEach m h (back.length + 1) (firstOf h back) = some back := by
    intro back
    induction back with
    | nil => exact fun _ _ => if_pos rfl
    | cons a back ih =>
        intro front split
        obtain ⟨back', cycle⟩ := cycle_behind h a front back
        rw [← split] at cycle
        have next := (ring.linked cycle).1
        have other : a ≠ h := by
          rintro rfl
          refine (List.nodup_cons.mp ring.nodup).1 ?_
          rw [split]
          simp
        have later := ih (front ++ [a]) (by rw [split]; simp)
        rw [show firstOf h (a :: back) = a from rfl, List.length_cons, forEach, if_neg other, next]
        simp only [Option.bind_eq_bind, Option.bind_some, later]
        rfl
  obtain ⟨back, cycle⟩ := cycle_first h (t.nodes h)
  have next := (ring.linked cycle).1
  refine ⟨⟨_, next, walk (t.nodes h) [] rfl⟩, ?_⟩
  rw [losListEmpty, next, decide_eq_true_eq, Option.some.injEq]
  cases empty : t.nodes h with
  | nil => simp [firstOf]
  | cons a rest =>
      have other : a ≠ h := by
        rintro rfl
        refine (List.nodup_cons.mp ring.nodup).1 ?_
        rw [empty]
        exact List.mem_cons_self
      simp [firstOf, other]

/-- No lists yet. -/
def noLists : Lists α := ⟨∅, fun _ => []⟩

/-- **The pointers hold the lists**: from any memory, whatever calls are made, no null pointer is
followed, and behind them every list of the table is visited node by node and is empty exactly
when `LOS_ListEmpty` says so. -/
theorem lists_hold (m : Links α) {calls : List (ListCall α)} {t : Lists α}
    (does : DoesAll noLists calls t) :
    ∃ m', runCalls m calls = some m' ∧ ∀ h ∈ t.heads,
      (∃ first, m'.next h = some first ∧
        forEach m' h ((t.nodes h).length + 1) first = some (t.nodes h)) ∧
      (losListEmpty m' h = true ↔ t.nodes h = []) := by
  have none : Holds m noLists := ⟨fun _ isHead => isHead.elim, fun _ isHead => isHead.elim⟩
  obtain ⟨m', ran, holds⟩ := none.calls does
  exact ⟨m', ran, fun h isHead => holds.visits isHead⟩

/-- Two nodes go into a list, the second before the first, and the first one comes out; then the
list is made anew. -/
theorem lists_hold_two :
    ∃ m', runCalls (⟨fun _ => none, fun _ => none⟩ : Links Nat)
        [.init 0, .tailInsert 0 5, .tailInsert 5 7, .delete 5, .init 0] = some m' ∧
      losListEmpty m' 0 = true := by
  have does : DoesAll (noLists : Lists Nat)
      [.init 0, .tailInsert 0 5, .tailInsert 5 7, .delete 5, .init 0]
      ((((((noLists.open 0).set 0 [5]).set 0 ([] ++ 7 :: [5])).set 0 ([7] ++ [])).giveUp 0).open
        0) := by
    refine .cons (.init ?_) (.cons (.tailInsert ?_ ?_) (.cons (.tailInsertBefore (h := 0) ?_ ?_ rfl)
      (.cons (.delete ?_ rfl) (.giveUp 0 (.cons (.init ?_) (.nil _))))))
    all_goals simp [Lists.Free, Lists.open, Lists.set, Lists.giveUp, noLists]
  obtain ⟨m', ran, visits⟩ := lists_hold ⟨fun _ => none, fun _ => none⟩ does
  obtain ⟨-, empty⟩ := visits 0 (Set.mem_insert 0 _)
  refine ⟨m', ran, empty.mpr ?_⟩
  simp [Lists.open]

end EinkLiteOS.Kernel
