/-
# Theory.Search -- words in a text that is read in two parts

A reply is searched for some words once it is complete, but it is read part by part.
Where a word runs over the seam between two parts, an ending of it begins the second
part.  So what the first part contributes to the search is how it reads with each
`ending` of the words behind it (`contains_append`), and two first parts that read the
same there read the same whatever follows.

`text` is the C string in some bytes: what stands before the first NUL.
-/
import Mathlib.Data.List.Infix

namespace EinkLiteOS.Theory.Search

set_option autoImplicit false

universe u

variable {α : Type u}

/-- One of the words stands somewhere in the text. -/
def Contains (words : List (List α)) (s : List α) : Prop := ∃ word ∈ words, word <:+: s

instance [DecidableEq α] (words : List (List α)) (s : List α) : Decidable (Contains words s) :=
  inferInstanceAs (Decidable (∃ word ∈ words, word <:+: s))

/-- What may still be missing of a word that has been begun. -/
def endings (words : List (List α)) : List (List α) := words.flatMap List.tails

theorem mem_endings {words : List (List α)} {ending : List α} :
    ending ∈ endings words ↔ ∃ word ∈ words, ending <:+ word := by
  simp only [endings, List.mem_flatMap, List.mem_tails]

theorem Contains.mono {words : List (List α)} {s t : List α} (inside : s <:+: t)
    (contains : Contains words s) : Contains words t := by
  obtain ⟨word, member, found⟩ := contains
  exact ⟨word, member, found.trans inside⟩

/-- **A word in two parts** is in the second one, or in the first one and an ending of a
word that the second one begins with. -/
theorem contains_append {words more : List (List α)} (subset : words ⊆ more)
    (front back : List α) :
    Contains words (front ++ back) ↔ Contains words back ∨
      ∃ ending ∈ endings more, ending <+: back ∧ Contains words (front ++ ending) := by
  constructor
  · rintro ⟨word, member, found⟩
    rcases List.infix_append_iff_ne_nil.mp found with
      inFront | inBack | ⟨l, r, -, -, rfl, left, right⟩
    · exact Or.inr ⟨[], mem_endings.mpr ⟨word, subset member, List.nil_suffix⟩, List.nil_prefix,
        word, member, by rwa [List.append_nil]⟩
    · exact Or.inl ⟨word, member, inBack⟩
    · refine Or.inr ⟨r, mem_endings.mpr ⟨l ++ r, subset member, List.suffix_append l r⟩, right,
        l ++ r, member, ?_⟩
      obtain ⟨before, rfl⟩ := left
      exact ⟨before, [], by rw [List.append_nil, List.append_assoc]⟩
  · rintro (inBack | ⟨ending, -, begins, contains⟩)
    · exact inBack.mono (List.suffix_append front back).isInfix
    · exact contains.mono ((List.prefix_append_right_inj front).mpr begins).isInfix

/-- A symbol that is in none of the words adds nothing to the search. -/
theorem contains_concat {words : List (List α)} {a : α} (absent : ∀ word ∈ words, a ∉ word)
    (nonempty : ∀ word ∈ words, word ≠ []) (s : List α) :
    Contains words (s ++ [a]) ↔ Contains words s := by
  constructor
  · rintro ⟨word, member, found⟩
    rcases List.infix_concat_iff.mp found with atEnd | inside
    · rcases List.suffix_concat_iff.mp atEnd with empty | ⟨rest, rfl, -⟩
      · exact absurd empty (nonempty word member)
      · exact absurd (List.mem_append_right rest (List.mem_singleton_self a)) (absent _ member)
    · exact ⟨word, member, inside⟩
  · exact Contains.mono (List.prefix_append s [a]).isInfix

/-! ## C strings -/

/-- The bytes before the first NUL. -/
def text (bytes : List UInt8) : List UInt8 := bytes.takeWhile (· ≠ 0)

theorem text_append {front : List UInt8} (noNul : 0 ∉ front) (back : List UInt8) :
    text (front ++ back) = front ++ text back := by
  refine List.takeWhile_append_of_pos fun b member => decide_eq_true ?_
  rintro rfl
  exact noNul member

theorem text_append_of_nul {front : List UInt8} (nul : 0 ∈ front) (back : List UInt8) :
    text (front ++ back) = text front := by
  induction front with
  | nil => cases nul
  | cons b rest ih =>
      rw [text, text, List.cons_append, List.takeWhile_cons, List.takeWhile_cons]
      split
      case isTrue notNul =>
        have later : 0 ∈ rest := by
          rcases List.mem_cons.mp nul with rfl | later
          · exact absurd notNul (by decide)
          · exact later
        exact congrArg (b :: ·) (ih later)
      case isFalse => rfl

end EinkLiteOS.Theory.Search
