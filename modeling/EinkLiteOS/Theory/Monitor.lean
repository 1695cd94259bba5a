/-
# Theory.Monitor -- rules about what may follow what in a trace

A `Monitor` watches a trace of operations: `next` follows it and `Ok` says of an
operation whether it may come in the state reached.  A trace is accepted if every
operation in it may come where it does (`accepts_iff_split`), and acceptance is
checked piece by piece (`accepts_append`).
-/
import Mathlib.Data.List.Basic

namespace EinkLiteOS.Theory

set_option autoImplicit false

universe u v

structure Monitor (σ : Type u) (ω : Type v) where
  next : σ → ω → σ
  Ok : σ → ω → Prop

namespace Monitor

variable {σ : Type u} {ω : Type v} (M : Monitor σ ω)

/-- The state after a trace. -/
def after (s : σ) (trace : List ω) : σ := trace.foldl M.next s

/-- Every operation of the trace may come where it does. -/
def Accepts : σ → List ω → Prop
  | _, [] => True
  | s, op :: rest => M.Ok s op ∧ Accepts (M.next s op) rest

@[simp] theorem after_nil (s : σ) : M.after s [] = s := rfl

@[simp] theorem after_cons (s : σ) (op : ω) (rest : List ω) :
    M.after s (op :: rest) = M.after (M.next s op) rest := rfl

@[simp] theorem accepts_nil (s : σ) : M.Accepts s [] := trivial

@[simp] theorem accepts_cons (s : σ) (op : ω) (rest : List ω) :
    M.Accepts s (op :: rest) ↔ M.Ok s op ∧ M.Accepts (M.next s op) rest := Iff.rfl

@[simp] theorem after_append (s : σ) (front back : List ω) :
    M.after s (front ++ back) = M.after (M.after s front) back := List.foldl_append

@[simp] theorem accepts_append (s : σ) (front back : List ω) :
    M.Accepts s (front ++ back) ↔ M.Accepts s front ∧ M.Accepts (M.after s front) back := by
  induction front generalizing s with
  | nil => exact ⟨fun accepted => ⟨trivial, accepted⟩, fun accepted => accepted.2⟩
  | cons op rest ih => simp only [List.cons_append, accepts_cons, after_cons, ih, and_assoc]

/-- A trace is accepted exactly when no prefix of it is followed by an operation that
may not come there. -/
theorem accepts_iff_split (s : σ) (trace : List ω) :
    M.Accepts s trace ↔
      ∀ before op later, trace = before ++ op :: later → M.Ok (M.after s before) op := by
  constructor
  · rintro accepted before op later rfl
    exact ((M.accepts_append s before (op :: later)).mp accepted).2.1
  · intro each
    induction trace generalizing s with
    | nil => trivial
    | cons op rest ih =>
        refine ⟨each [] op rest rfl, ih _ ?_⟩
        intro before o later split
        exact each (op :: before) o later (congrArg (op :: ·) split)

/-- A trace of blocks: each block is accepted where it comes. -/
theorem accepts_flatMap {β : Type v} (s : σ) (block : β → List ω) (blocks : List β) :
    M.Accepts s (blocks.flatMap block) ↔
      ∀ before b later, blocks = before ++ b :: later →
        M.Accepts (M.after s (before.flatMap block)) (block b) := by
  constructor
  · rintro accepted before b later rfl
    rw [List.flatMap_append, List.flatMap_cons, accepts_append, accepts_append] at accepted
    exact accepted.2.1
  · intro each
    induction blocks generalizing s with
    | nil => trivial
    | cons b rest ih =>
        rw [List.flatMap_cons, accepts_append]
        refine ⟨each [] b rest rfl, ih _ ?_⟩
        intro before c later split
        have accepted := each (b :: before) c later (congrArg (b :: ·) split)
        rwa [List.flatMap_cons, after_append] at accepted

end Monitor

end EinkLiteOS.Theory
