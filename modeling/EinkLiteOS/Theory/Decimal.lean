/-
# Theory.Decimal -- decimal numbers in a byte string, and separated words

The value of a string of ASCII digits, and the strings that are words between separators.
A string is words with the separator behind each, and a last word without it, in one way
only (`separated_inj`).
-/
import Mathlib.Algebra.Order.Ring.Nat
import Mathlib.Data.List.Induction

namespace EinkLiteOS.Theory.Decimal

set_option autoImplicit false

universe u

/-! ## Digits -/

/-- `'0'` to `'9'` -/
def IsDigit (b : UInt8) : Prop := 48 ≤ b.toNat ∧ b.toNat ≤ 57

instance (b : UInt8) : Decidable (IsDigit b) := inferInstanceAs (Decidable (_ ∧ _))

/-- The value of a string of digits. -/
def value (digits : List UInt8) : Nat := digits.foldl (fun v b => v * 10 + (b.toNat - 48)) 0

@[simp] theorem value_nil : value [] = 0 := rfl

theorem value_concat (digits : List UInt8) (b : UInt8) :
    value (digits ++ [b]) = value digits * 10 + (b.toNat - 48) := by
  simp only [value]
  rw [List.foldl_append]
  rfl

theorem value_lt {digits : List UInt8} (all : ∀ b ∈ digits, IsDigit b) :
    value digits < 10 ^ digits.length := by
  induction digits using List.reverseRecOn with
  | nil => exact Nat.one_pos
  | append_singleton digits b ih =>
      have before := ih fun c member => all c (List.mem_append_left [b] member)
      have digit := all b (List.mem_append_right digits (List.mem_singleton_self b))
      rw [value_concat, List.length_append, List.length_singleton, Nat.pow_succ]
      simp only [IsDigit] at digit
      omega

/-! ## Words and separators -/

variable {α : Type u}

/-- Words, with the separator behind each. -/
def separated (separator : α) (words : List (List α)) : List α :=
  words.flatMap fun word => word ++ [separator]

@[simp] theorem separated_nil (separator : α) : separated separator [] = [] := rfl

theorem separated_cons (separator : α) (word : List α) (words : List (List α)) :
    separated separator (word :: words) = word ++ separator :: separated separator words := by
  simp only [separated]
  rw [List.flatMap_cons, List.append_assoc, List.singleton_append]

theorem separated_concat (separator : α) (words : List (List α)) (word : List α) :
    separated separator (words ++ [word]) = separated separator words ++ word ++ [separator] := by
  simp only [separated]
  rw [List.flatMap_append, List.flatMap_singleton, List.append_assoc]

/-- A word ends at the first separator. -/
theorem word_inj {separator : α} {word word' rest rest' : List α} (free : separator ∉ word)
    (free' : separator ∉ word') (same : word ++ separator :: rest = word' ++ separator :: rest') :
    word = word' ∧ rest = rest' := by
  induction word generalizing word' with
  | nil =>
      cases word' with
      | nil => exact ⟨rfl, (List.cons.inj same).2⟩
      | cons b word' => exact absurd ((List.cons.inj same).1 ▸ List.mem_cons_self) free'
  | cons a word ih =>
      cases word' with
      | nil => exact absurd ((List.cons.inj same).1 ▸ List.mem_cons_self) free
      | cons b word' =>
          obtain ⟨rfl, tails⟩ := List.cons.inj same
          obtain ⟨rfl, rfl⟩ := ih (fun member => free (List.mem_cons_of_mem a member))
            (fun member => free' (List.mem_cons_of_mem a member)) tails
          exact ⟨rfl, rfl⟩

/-- A last word has no separator, so it is none of the words before it. -/
theorem last_ne {separator : α} {word rest last : List α} (free : separator ∉ last) :
    last ≠ word ++ separator :: rest := by
  rintro rfl
  exact free (List.mem_append_right word List.mem_cons_self)

/-- **Words are separated in one way only.** -/
theorem separated_inj {separator : α} {words words' : List (List α)} {last last' : List α}
    (free : ∀ word ∈ words, separator ∉ word) (free' : ∀ word ∈ words', separator ∉ word)
    (lastFree : separator ∉ last) (lastFree' : separator ∉ last')
    (same : separated separator words ++ last = separated separator words' ++ last') :
    words = words' ∧ last = last' := by
  induction words generalizing words' with
  | nil =>
      cases words' with
      | nil => exact ⟨rfl, same⟩
      | cons word' words' =>
          rw [separated_cons, List.append_assoc, List.cons_append] at same
          exact absurd same (last_ne lastFree)
  | cons word words ih =>
      cases words' with
      | nil =>
          rw [separated_cons, List.append_assoc, List.cons_append] at same
          exact absurd same.symm (last_ne lastFree')
      | cons word' words' =>
          rw [separated_cons, separated_cons, List.append_assoc, List.append_assoc,
            List.cons_append, List.cons_append] at same
          obtain ⟨rfl, rest⟩ := word_inj (free word List.mem_cons_self)
            (free' word' List.mem_cons_self) same
          obtain ⟨rfl, rfl⟩ := ih (fun w member => free w (List.mem_cons_of_mem word member))
            (fun w member => free' w (List.mem_cons_of_mem word member)) rest
          exact ⟨rfl, rfl⟩

end EinkLiteOS.Theory.Decimal
