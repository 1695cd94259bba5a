/-
# Theory.Heap -- blocks of memory, live and freed

A heap holds the blocks that are live, each with its contents.  A block has an identity of
its own: memory that is given out again is another block.  The contents of a live block are
what was stored last; behind a pointer to a freed block anything may lie, so a read takes
what lies there as a parameter and tells whether it was used.
-/
import Mathlib.Logic.Function.Basic

namespace EinkLiteOS.Theory

set_option autoImplicit false

universe u

/-- The live blocks, and the identity of the next one to be given out. -/
structure Heap (β : Type u) where
  blocks : Nat → Option β
  next : Nat

/-- Where a pointer points. -/
inductive Pointer (β : Type u) where
  | block (id : Nat)
  | static (contents : β)

namespace Heap

variable {β : Type u} (heap : Heap β)

/-- A new block, with whatever its memory held. -/
def malloc (contents : β) : Nat × Heap β :=
  (heap.next,
    { blocks := Function.update heap.blocks heap.next (some contents), next := heap.next + 1 })

/-- A store into a live block. -/
def store (id : Nat) (change : β → β) : Heap β :=
  { heap with blocks := Function.update heap.blocks id ((heap.blocks id).map change) }

def free (id : Nat) : Heap β := { heap with blocks := Function.update heap.blocks id none }

/-- What a pointer reads, and whether it is live or static; `garbage` is what the memory of a
freed block holds at the moment. -/
def fetch (garbage : β) : Pointer β → β × Bool
  | .block id =>
      match heap.blocks id with
      | some contents => (contents, true)
      | none => (garbage, false)
  | .static contents => (contents, true)

/-- **A block that was freed reads anything.** -/
theorem fetch_free (id : Nat) (garbage : β) :
    (heap.free id).fetch garbage (.block id) = (garbage, false) := by
  simp [fetch, free]

@[simp] theorem fetch_static (garbage contents : β) :
    heap.fetch garbage (.static contents) = (contents, true) := rfl

end Heap

end EinkLiteOS.Theory
