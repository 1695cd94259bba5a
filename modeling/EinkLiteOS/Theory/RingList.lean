/-
# Theory.RingList -- circular doubly linked lists

A memory holds for each address a pointer to the next and one to the previous node.  A ring
is a head and the nodes that lead from it back to it, in both directions.  A node is put
between two neighbours (`between`) or taken out from between them (`bridge`), and what is
not a neighbour does not notice.

* `Ring.insert` and `Ring.remove` are the two operations on one ring.
* `Rings` is a family of rings that share no address; what changes one of them leaves the
  others (`Rings.change`).
-/
import Mathlib.Data.List.Chain
import Mathlib.Data.List.Induction
import Mathlib.Data.List.Nodup
import Mathlib.Data.Set.Insert
import Mathlib.Logic.Function.Basic

namespace EinkLiteOS.Theory.RingList

set_option autoImplicit false

universe u

variable {α : Type u}

/-- The two pointers of every address; `none` is the null pointer. -/
structure Links (α : Type u) where
  next : α → Option α
  prev : α → Option α

/-- `node` put between `x` and `y`. -/
def Links.between [DecidableEq α] (m : Links α) (x node y : α) : Links α where
  next := Function.update (Function.update m.next node (some y)) x (some node)
  prev := Function.update (Function.update m.prev node (some x)) y (some node)

/-- `node` taken out from between `x` and `y`. -/
def Links.bridge [DecidableEq α] (m : Links α) (x node y : α) : Links α where
  next := Function.update (Function.update m.next x (some y)) node none
  prev := Function.update (Function.update m.prev y (some x)) node none

/-- `b` follows `a`, and `a` precedes `b`. -/
def Linked (m : Links α) (a b : α) : Prop := m.next a = some b ∧ m.prev b = some a

/-- From the head through the nodes back to the head, each address once. -/
structure Ring (m : Links α) (head : α) (nodes : List α) : Prop where
  nodup : (head :: nodes).Nodup
  chain : (head :: (nodes ++ [head])).IsChain (Linked m)

/-! ## Chains -/

theorem isChain_imp_ends {R S : α → α → Prop} {l : List α} (chain : l.IsChain R)
    (imp : ∀ a b, a ∈ l.dropLast → b ∈ l.tail → R a b → S a b) : l.IsChain S := by
  induction l with
  | nil => exact .nil
  | cons a rest ih =>
      cases rest with
      | nil => exact .singleton a
      | cons b rest =>
          obtain ⟨first, later⟩ := List.isChain_cons_cons.mp chain
          refine List.isChain_cons_cons.mpr ⟨imp a b ?_ List.mem_cons_self first, ih later ?_⟩
          · rw [List.dropLast_cons_cons]
            exact List.mem_cons_self
          · intro c d source target
            refine imp c d ?_ (List.mem_of_mem_tail target)
            rw [List.dropLast_cons_cons]
            exact List.mem_cons_of_mem a source

/-- The neighbours `x` and `y` in a ring: no other address leads from `x`, and none to `y`. -/
structure Neighbours (front : List α) (x y : α) (back : List α) : Prop where
  left : x ∉ front
  leftBack : x ∉ (y :: back).dropLast
  right : y ∉ (front ++ [x]).tail
  rightBack : y ∉ back

/-- Two addresses that follow each other around a ring are neighbours. -/
theorem neighbours {head : α} {nodes front back : List α} {x y : α}
    (nodup : (head :: nodes).Nodup) (split : head :: (nodes ++ [head]) = front ++ x :: y :: back) :
    Neighbours front x y back := by
  have sources : head :: nodes = front ++ x :: (y :: back).dropLast := by
    have same := congrArg List.dropLast split
    rw [← List.cons_append, List.dropLast_concat, List.dropLast_append_of_ne_nil (by simp),
      List.dropLast_cons_of_ne_nil (by simp)] at same
    exact same
  have targets : nodes ++ [head] = (front ++ [x]).tail ++ y :: back := by
    have same := congrArg List.tail split
    rw [List.tail_cons] at same
    rw [same, ← List.tail_append_of_ne_nil (by simp), List.append_assoc, List.singleton_append]
  have targetsNodup : (nodes ++ [head]).Nodup := (List.perm_append_singleton head nodes).nodup_iff.mpr
    nodup
  rw [sources, List.nodup_append'] at nodup
  rw [targets, List.nodup_append'] at targetsNodup
  obtain ⟨-, later, apart⟩ := nodup
  obtain ⟨-, later', apart'⟩ := targetsNodup
  exact ⟨fun inFront => apart inFront List.mem_cons_self, (List.nodup_cons.mp later).1,
    fun inFront => apart' inFront List.mem_cons_self, (List.nodup_cons.mp later').1⟩

/-! ## Places in a ring -/

/-- The first node, or the head if there is none. -/
def firstOf (h : α) (nodes : List α) : α := nodes.headD h

/-- The last node, or the head if there is none. -/
def lastOf (h : α) (nodes : List α) : α := nodes.getLastD h

theorem lastOf_append_cons (h a : α) (front back : List α) :
    lastOf h (front ++ a :: back) = lastOf a back := by
  cases back using List.reverseRecOn with
  | nil => simp [lastOf]
  | append_singleton back b _ =>
      rw [← List.cons_append, ← List.append_assoc]
      simp only [lastOf, List.getLastD_concat]

theorem Ring.linked {m : Links α} {h a b : α} {nodes front back : List α} (ring : Ring m h nodes)
    (split : h :: (nodes ++ [h]) = front ++ a :: b :: back) :
    m.next a = some b ∧ m.prev b = some a := by
  have chain := ring.chain
  rw [split] at chain
  exact (List.isChain_append_cons_cons.mp chain).2.1

theorem last_of_cons (h : α) (nodes : List α) :
    ∃ front, h :: nodes = front ++ [lastOf h nodes] := by
  cases nodes using List.reverseRecOn with
  | nil => exact ⟨[], rfl⟩
  | append_singleton rest a _ => exact ⟨h :: rest, by simp [lastOf]⟩

theorem cycle_first (h : α) (nodes : List α) :
    ∃ back, h :: (nodes ++ [h]) = [] ++ h :: firstOf h nodes :: back := by
  cases nodes with
  | nil => exact ⟨[], rfl⟩
  | cons a rest => exact ⟨rest ++ [h], rfl⟩

theorem cycle_last (h : α) (nodes : List α) :
    ∃ front, h :: nodes = front ++ [lastOf h nodes] ∧
      h :: (nodes ++ [h]) = front ++ lastOf h nodes :: h :: [] := by
  obtain ⟨front, before⟩ := last_of_cons h nodes
  refine ⟨front, before, ?_⟩
  rw [← List.cons_append, before, List.append_assoc]
  rfl

/-- Before a node there is the last one of those in front of it. -/
theorem cycle_before (h a : α) (front back : List α) :
    ∃ front', h :: front = front' ++ [lastOf h front] ∧
      h :: ((front ++ a :: back) ++ [h]) = front' ++ lastOf h front :: a :: (back ++ [h]) := by
  obtain ⟨front', before⟩ := last_of_cons h front
  refine ⟨front', before, ?_⟩
  rw [List.append_assoc, ← List.cons_append, before, List.append_assoc]
  rfl

theorem cycle_behind (h a : α) (front back : List α) :
    ∃ back', h :: ((front ++ a :: back) ++ [h]) = (h :: front) ++ a :: firstOf h back :: back' := by
  cases back with
  | nil => exact ⟨[], by simp [firstOf]⟩
  | cons b back => exact ⟨back ++ [h], by simp [firstOf]⟩

theorem cycle_around (h a : α) (front back : List α) :
    ∃ front' back', h :: ((front ++ a :: back) ++ [h]) =
        front' ++ lastOf h front :: a :: firstOf h back :: back' ∧
      h :: ((front ++ back) ++ [h]) = front' ++ lastOf h front :: firstOf h back :: back' := by
  obtain ⟨front', before⟩ := last_of_cons h front
  obtain ⟨back', after⟩ : ∃ back', back ++ [h] = firstOf h back :: back' := by
    cases back with
    | nil => exact ⟨[], rfl⟩
    | cons b back => exact ⟨back ++ [h], rfl⟩
  refine ⟨front', back', ?_, ?_⟩
  · rw [List.append_assoc, List.cons_append, ← List.cons_append, before, after]
    simp
  · rw [List.append_assoc, ← List.cons_append, before, after]
    simp

/-- The links away from two neighbours. -/
theorem Neighbours.chain {R S : α → α → Prop} {front back : List α} {x y : α}
    (neighbours : Neighbours front x y back)
    (stays : ∀ a b, a ∈ front ++ x :: y :: back → b ∈ front ++ x :: y :: back → a ≠ x → b ≠ y →
      R a b → S a b)
    (before : (front ++ [x]).IsChain R) (after : (y :: back).IsChain R) :
    (front ++ [x]).IsChain S ∧ (y :: back).IsChain S := by
  refine ⟨isChain_imp_ends before ?_, isChain_imp_ends after ?_⟩
  · intro a b source target linked
    rw [List.dropLast_concat] at source
    have inFront : b ∈ front ++ [x] := List.mem_of_mem_tail target
    refine stays a b (List.mem_append_left _ source) ?_ ?_ ?_ linked
    · rw [← List.singleton_append, ← List.append_assoc]
      exact List.mem_append_left _ inFront
    · rintro rfl
      exact neighbours.left source
    · rintro rfl
      exact neighbours.right target
  · intro a b source target linked
    refine stays a b ?_ ?_ ?_ ?_ linked
    · exact List.mem_append_right _ (List.mem_cons_of_mem x (List.dropLast_subset _ source))
    · exact List.mem_append_right _ (List.mem_cons_of_mem x (List.mem_cons_of_mem y target))
    · rintro rfl
      exact neighbours.leftBack source
    · rintro rfl
      exact neighbours.rightBack target

/-! ## One ring -/

variable [DecidableEq α]

theorem between_linked {m : Links α} {x node y a b : α} (linked : Linked m a b) (notX : a ≠ x)
    (notY : b ≠ y) (a' : a ≠ node) (b' : b ≠ node) : Linked (m.between x node y) a b := by
  simp only [Linked, Links.between, Function.update_of_ne notX, Function.update_of_ne a',
    Function.update_of_ne notY, Function.update_of_ne b']
  exact linked

theorem bridge_linked {m : Links α} {x node y a b : α} (linked : Linked m a b) (notX : a ≠ x)
    (notY : b ≠ y) (a' : a ≠ node) (b' : b ≠ node) : Linked (m.bridge x node y) a b := by
  simp only [Linked, Links.bridge, Function.update_of_ne notX, Function.update_of_ne a',
    Function.update_of_ne notY, Function.update_of_ne b']
  exact linked

/-- **A new node between two neighbours.** -/
theorem Ring.insert {m : Links α} {head node x y : α} {nodes front back nodes' : List α}
    (ring : Ring m head nodes) (fresh : node ∉ head :: nodes)
    (split : head :: (nodes ++ [head]) = front ++ x :: y :: back)
    (split' : head :: (nodes' ++ [head]) = front ++ x :: node :: y :: back)
    (perm : nodes'.Perm (node :: nodes)) : Ring (m.between x node y) head nodes' := by
  have members : ∀ a ∈ front ++ x :: y :: back, a ≠ node := by
    rintro a member rfl
    rw [← split] at member
    simp only [List.mem_cons, List.mem_append, List.not_mem_nil, or_false, not_or] at member fresh
    rcases member with same | inside | same
    · exact fresh.1 same
    · exact fresh.2 inside
    · exact fresh.1 same
  have chain := ring.chain
  rw [split] at chain
  obtain ⟨before, -, after⟩ := List.isChain_append_cons_cons.mp chain
  obtain ⟨before, after⟩ := (neighbours ring.nodup split).chain
    (fun a b inA inB notX notY linked =>
      between_linked (y := y) linked notX notY (members a inA) (members b inB)) before after
  have notX : node ≠ x := (members x (by simp)).symm
  have notY : node ≠ y := (members y (by simp)).symm
  refine ⟨?_, ?_⟩
  · have swap : (head :: nodes').Perm (node :: head :: nodes) :=
      (perm.cons head).trans (List.Perm.swap node head nodes)
    exact swap.nodup_iff.mpr (List.nodup_cons.mpr ⟨fresh, ring.nodup⟩)
  · rw [split']
    refine List.isChain_append_cons_cons.mpr ⟨before, ?_, List.isChain_cons_cons.mpr ⟨?_, after⟩⟩
    · simp [Linked, Links.between, notY]
    · simp [Linked, Links.between, notX]

/-- **A node taken out.** -/
theorem Ring.remove {m : Links α} {head node x y : α} {nodes front back nodes' : List α}
    (ring : Ring m head nodes) (split : head :: (nodes ++ [head]) = front ++ x :: node :: y :: back)
    (split' : head :: (nodes' ++ [head]) = front ++ x :: y :: back)
    (perm : nodes.Perm (node :: nodes')) :
    Linked m x node ∧ Linked m node y ∧ Ring (m.bridge x node y) head nodes' := by
  have chain := ring.chain
  rw [split] at chain
  obtain ⟨before, into, rest⟩ := List.isChain_append_cons_cons.mp chain
  obtain ⟨out, after⟩ := List.isChain_cons_cons.mp rest
  have swap : (head :: nodes).Perm (node :: head :: nodes') :=
    (perm.cons head).trans (List.Perm.swap node head nodes')
  obtain ⟨gone, nodup'⟩ := List.nodup_cons.mp (swap.nodup_iff.mp ring.nodup)
  have members : ∀ a ∈ front ++ x :: y :: back, a ≠ node := by
    rintro a member rfl
    rw [← split'] at member
    simp only [List.mem_cons, List.mem_append, List.not_mem_nil, or_false, not_or] at member gone
    rcases member with same | inside | same
    · exact gone.1 same
    · exact gone.2 inside
    · exact gone.1 same
  obtain ⟨before, after⟩ := (neighbours nodup' split').chain
    (fun a b inA inB notX notY linked =>
      bridge_linked (y := y) linked notX notY (members a inA) (members b inB)) before after
  have notX : x ≠ node := members x (by simp)
  have notY : y ≠ node := members y (by simp)
  refine ⟨into, out, nodup', ?_⟩
  rw [split']
  refine List.isChain_append_cons_cons.mpr ⟨before, ?_, after⟩
  simp [Linked, Links.bridge, notX, notY]

/-! ## Several rings -/

/-- Rings that share no address. -/
structure Rings (m : Links α) (heads : Set α) (lists : α → List α) : Prop where
  ring : ∀ h ∈ heads, Ring m h (lists h)
  apart : ∀ h ∈ heads, ∀ h' ∈ heads, h ≠ h' → ∀ a ∈ h :: lists h, a ∉ h' :: lists h'

omit [DecidableEq α] in
/-- Some of the rings. -/
theorem Rings.subset {m : Links α} {heads heads' : Set α} {lists : α → List α}
    (rings : Rings m heads lists) (fewer : heads' ⊆ heads) : Rings m heads' lists :=
  ⟨fun h isHead => rings.ring h (fewer isHead),
    fun h isHead h' isHead' => rings.apart h (fewer isHead) h' (fewer isHead')⟩

omit [DecidableEq α] in
/-- A ring does not notice what happens elsewhere. -/
theorem Ring.congr {m m' : Links α} {head : α} {nodes : List α} (ring : Ring m head nodes)
    (same : ∀ a ∈ head :: nodes, m'.next a = m.next a ∧ m'.prev a = m.prev a) :
    Ring m' head nodes := by
  have members : ∀ a ∈ head :: (nodes ++ [head]), a ∈ head :: nodes := by
    intro a member
    simp only [List.mem_cons, List.mem_append, List.not_mem_nil, or_false] at member ⊢
    tauto
  refine ⟨ring.nodup, ring.chain.imp_of_mem_imp ?_⟩
  intro a b source target linked
  exact ⟨(same a (members a source)).1.trans linked.1, (same b (members b target)).2.trans linked.2⟩

/-- One ring changes, inside its own addresses and one that no ring holds. -/
theorem Rings.change {m m' : Links α} {heads : Set α} {lists : α → List α}
    (rings : Rings m heads lists) {h node : α} (isHead : h ∈ heads)
    (free : ∀ h' ∈ heads, h' ≠ h → node ∉ h' :: lists h') {nodes' : List α}
    (ring : Ring m' h nodes') (inside : ∀ a ∈ h :: nodes', a = node ∨ a ∈ h :: lists h)
    (elsewhere : ∀ a, a ≠ node → a ∉ h :: lists h → m'.next a = m.next a ∧ m'.prev a = m.prev a) :
    Rings m' heads (Function.update lists h nodes') := by
  have others : ∀ h' ∈ heads, h' ≠ h → ∀ a ∈ h' :: lists h', a ≠ node ∧ a ∉ h :: lists h := by
    intro h' isHead' other a member
    exact ⟨fun same => free h' isHead' other (same ▸ member),
      rings.apart h' isHead' h isHead other a member⟩
  have outside : ∀ h' ∈ heads, h' ≠ h → ∀ a ∈ h' :: lists h', a ∉ h :: nodes' := by
    intro h' isHead' other a member inNew
    obtain ⟨notNode, notOld⟩ := others h' isHead' other a member
    exact (inside a inNew).elim notNode notOld
  constructor
  · intro h' isHead'
    by_cases same : h' = h
    · subst same
      rw [Function.update_self]
      exact ring
    · rw [Function.update_of_ne same]
      refine (rings.ring h' isHead').congr ?_
      intro a member
      obtain ⟨notNode, notOld⟩ := others h' isHead' same a member
      exact elsewhere a notNode notOld
  · intro h' isHead' h'' isHead'' different a member
    by_cases same : h' = h
    · subst same
      rw [Function.update_self] at member
      rw [Function.update_of_ne different.symm]
      exact fun inOther => outside h'' isHead'' different.symm a inOther member
    · rw [Function.update_of_ne same] at member
      by_cases same' : h'' = h
      · subst same'
        rw [Function.update_self]
        exact outside h' isHead' same a member
      · rw [Function.update_of_ne same']
        exact rings.apart h' isHead' h'' isHead'' different a member

end EinkLiteOS.Theory.RingList
