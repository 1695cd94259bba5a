/-
# Theory.Pattern -- regular expressions without alternatives, and all their matches

A pattern is a sequence of items: a class of letters, how many of them in a row, and whether
they are captured.  Every item first takes as many letters as it can and gives them back one
by one until the items behind it match (`matchHere`); `findAll` takes the matches in a text
from the left, each behind the one before.

`Reads p word matches` says that a piece of text contributes just these matches, whatever
stands behind it.  It composes along the text, so a printed text is read piece by piece.
-/
import Mathlib.Data.List.Basic

namespace EinkLiteOS.Theory

universe u v

set_option autoImplicit false

/-- At least `least` letters of a class, and at most `most` if it is given. -/
structure Item (α : Type u) where
  accepts : α → Bool
  least : Nat
  most : Option Nat
  captured : Bool

namespace Item

variable {α : Type u}

/-- One letter of a class. -/
def one (accepts : α → Bool) : Item α := ⟨accepts, 1, some 1, false⟩

/-- `[..]+` -/
def plus (accepts : α → Bool) : Item α := ⟨accepts, 1, none, false⟩

/-- `[..]*` -/
def star (accepts : α → Bool) : Item α := ⟨accepts, 0, none, false⟩

/-- `[..]{n}` -/
def times (n : Nat) (accepts : α → Bool) : Item α := ⟨accepts, n, some n, false⟩

/-- `(..)` -/
def group (item : Item α) : Item α := { item with captured := true }

/-- A word to be matched letter by letter. -/
def literal [BEq α] (word : List α) : List (Item α) := word.map fun a => one (a == ·)

/-- The most letters the item takes from the beginning of a text. -/
def longest (item : Item α) (text : List α) : Nat :=
  let run := (text.takeWhile item.accepts).length
  match item.most with
  | none => run
  | some most => min run most

/-- The numbers of letters to be tried, from the most to the least. -/
def lengths (item : Item α) (text : List α) : List Nat :=
  (List.range' item.least (item.longest text + 1 - item.least)).reverse

/-- The captures when the item takes `taken`. -/
def keep (item : Item α) (taken : List α) (groups : List (List α)) : List (List α) :=
  if item.captured then taken :: groups else groups

end Item

/-- A pattern whose first item is not empty, so that no match is. -/
structure Pattern (α : Type u) where
  first : Item α
  rest : List (Item α)
  consumes : 0 < first.least

variable {α : Type u}

/-- The captures of the first match at the beginning of a text, and the text behind it. -/
def matchHere : List (Item α) → List α → Option (List (List α) × List α)
  | [], text => some ([], text)
  | item :: items, text =>
      (item.lengths text).findSome? fun n =>
        (matchHere items (text.drop n)).map fun found => (item.keep (text.take n) found.1, found.2)

/-- All matches, the first `skip` letters left out. -/
def findAllFrom (p : Pattern α) : Nat → List α → List (List (List α))
  | _, [] => []
  | skip + 1, _ :: text => findAllFrom p skip text
  | 0, a :: text =>
      match matchHere (p.first :: p.rest) (a :: text) with
      | some (groups, rest) => groups :: findAllFrom p (text.length - rest.length) text
      | none => findAllFrom p 0 text

/-- `re.findall`: the captures of every match. -/
def findAll (p : Pattern α) (text : List α) : List (List (List α)) := findAllFrom p 0 text

/-! ## One match -/

/-- An item whose longest run leads to a match takes it. -/
theorem matchHere_longest {item : Item α} {items : List (Item α)} {text : List α} {n : Nat}
    {found : List (List α) × List α} (longest : item.longest text = n) (enough : item.least ≤ n)
    (behind : matchHere items (text.drop n) = some found) :
    matchHere (item :: items) text = some (item.keep (text.take n) found.1, found.2) := by
  have count : n + 1 - item.least = (n - item.least) + 1 := by omega
  have top : item.least + (n - item.least) = n := by omega
  rw [matchHere, Item.lengths, longest, count, List.range'_1_concat, List.reverse_concat, top,
    List.findSome?_cons, behind]
  rfl

/-- A run of the class that ends where another letter stands. -/
theorem matchHere_run (item : Item α) {items : List (Item α)} {run text : List α}
    {found : List (List α) × List α} (unbounded : item.most = none)
    (accepted : ∀ a ∈ run, item.accepts a = true) (enough : item.least ≤ run.length)
    (ends : ∀ a ∈ text.head?, item.accepts a = false)
    (behind : matchHere items text = some found) :
    matchHere (item :: items) (run ++ text) = some (item.keep run found.1, found.2) := by
  have stops : text.takeWhile item.accepts = [] := by
    cases text with
    | nil => rfl
    | cons a text => rw [List.takeWhile_cons_of_neg]; simpa using ends a rfl
  have longest : item.longest (run ++ text) = run.length := by
    rw [Item.longest, unbounded, List.takeWhile_append_of_pos accepted, stops, List.append_nil]
  have matched := matchHere_longest longest enough (by rw [List.drop_left]; exact behind)
  rwa [List.take_left] at matched

theorem ends_cons {item : Item α} {a : α} {text : List α} (rejected : item.accepts a = false) :
    ∀ b ∈ (a :: text).head?, item.accepts b = false := by
  rintro b ⟨⟩
  exact rejected

/-- As many letters of the class as the item takes. -/
theorem matchHere_times (item : Item α) (word : List α) {items : List (Item α)} {text : List α}
    {found : List (List α) × List α} (most : item.most = some word.length)
    (least : item.least = word.length) (accepted : ∀ a ∈ word, item.accepts a = true)
    (behind : matchHere items text = some found) :
    matchHere (item :: items) (word ++ text) = some (item.keep word found.1, found.2) := by
  have longest : item.longest (word ++ text) = word.length := by
    rw [Item.longest, most, List.takeWhile_append_of_pos accepted, List.length_append]
    exact Nat.min_eq_right (Nat.le_add_right _ _)
  have matched := matchHere_longest longest (Nat.le_of_eq least)
    (by rw [List.drop_left]; exact behind)
  rwa [List.take_left] at matched

theorem matchHere_literal [BEq α] [LawfulBEq α] (word : List α) {items : List (Item α)}
    {text : List α} {found : List (List α) × List α} (behind : matchHere items text = some found) :
    matchHere (Item.literal word ++ items) (word ++ text) = some found := by
  induction word with
  | nil => exact behind
  | cons a word ih =>
      have letter : ∀ b ∈ [a], (Item.one (a == ·)).accepts b = true := by
        intro b member
        rw [List.mem_singleton.mp member]
        exact BEq.refl a
      exact matchHere_times (Item.one (a == ·)) [a] rfl rfl letter ih

/-- Nothing matches where the first letter is not accepted. -/
theorem matchHere_none {item : Item α} {items : List (Item α)} {a : α} {text : List α}
    (consumes : 0 < item.least) (rejected : item.accepts a = false) :
    matchHere (item :: items) (a :: text) = none := by
  have longest : item.longest (a :: text) = 0 := by
    simp only [Item.longest]
    rw [List.takeWhile_cons_of_neg (by simp [rejected])]
    cases item.most with
    | none => rfl
    | some most => exact Nat.zero_min most
  have none : item.longest (a :: text) + 1 - item.least = 0 := by omega
  rw [matchHere, Item.lengths, none]
  rfl

/-! ## All matches -/

@[simp] theorem findAll_nil (p : Pattern α) : findAll p [] = [] := rfl

theorem findAllFrom_append (p : Pattern α) (word text : List α) :
    findAllFrom p word.length (word ++ text) = findAll p text := by
  induction word with
  | nil => rfl
  | cons a word ih => exact ih

/-- A letter at which no match begins. -/
theorem findAll_cons {p : Pattern α} {a : α} (rejected : p.first.accepts a = false)
    (text : List α) : findAll p (a :: text) = findAll p text := by
  simp only [findAll]
  rw [findAllFrom, matchHere_none p.consumes rejected]

/-- A match, and the search goes on behind it. -/
theorem findAll_match {p : Pattern α} {word text : List α} {groups : List (List α)}
    (nonempty : word ≠ [])
    (matched : matchHere (p.first :: p.rest) (word ++ text) = some (groups, text)) :
    findAll p (word ++ text) = groups :: findAll p text := by
  cases word with
  | nil => exact absurd rfl nonempty
  | cons a word =>
      rw [List.cons_append] at matched ⊢
      have behind : (word ++ text).length - text.length = word.length := by
        rw [List.length_append, Nat.add_sub_cancel]
      rw [findAll, findAllFrom, matched]
      dsimp only
      rw [behind, findAllFrom_append]

/-! ## Texts read piece by piece -/

/-- In front of any text, `word` adds these matches. -/
def Reads (p : Pattern α) (word : List α) (groups : List (List (List α))) : Prop :=
  ∀ text, findAll p (word ++ text) = groups ++ findAll p text

namespace Reads

variable {p : Pattern α} {word word' : List α} {groups groups' : List (List (List α))}

theorem nil : Reads p [] [] := fun _ => rfl

theorem append (left : Reads p word groups) (right : Reads p word' groups') :
    Reads p (word ++ word') (groups ++ groups') := by
  intro text
  rw [List.append_assoc, List.append_assoc, left, right]

/-- Letters at which no match begins add none. -/
theorem of_rejected (rejected : word.any p.first.accepts = false) : Reads p word [] := by
  intro text
  induction word with
  | nil => rfl
  | cons a word ih =>
      rw [List.any_cons, Bool.or_eq_false_iff] at rejected
      rw [List.cons_append, findAll_cons rejected.1]
      exact ih rejected.2

/-- A word that matches in front of any text. -/
theorem of_match {captures : List (List α)} (nonempty : word ≠ [])
    (matched : ∀ text, matchHere (p.first :: p.rest) (word ++ text) = some (captures, text)) :
    Reads p word [captures] := by
  intro text
  exact findAll_match nonempty (matched text)

theorem flatMap {β : Type v} {f : β → List α} {g : β → List (List (List α))} {xs : List β}
    (each : ∀ x ∈ xs, Reads p (f x) (g x)) : Reads p (xs.flatMap f) (xs.flatMap g) := by
  induction xs with
  | nil => exact nil
  | cons x rest ih =>
      have later := ih fun y member => each y (List.mem_cons_of_mem x member)
      exact (each x List.mem_cons_self).append later

/-- Words with a separator between them. -/
theorem intercalate {β : Type v} {f : β → List α} {g : β → List (List (List α))} {xs : List β}
    {separator : List α} (between : Reads p separator []) (each : ∀ x ∈ xs, Reads p (f x) (g x)) :
    Reads p (separator.intercalate (xs.map f)) (xs.flatMap g) := by
  induction xs with
  | nil => exact nil
  | cons x rest ih =>
      have first := each x List.mem_cons_self
      have later := ih fun y member => each y (List.mem_cons_of_mem x member)
      by_cases last : rest = []
      · rw [last, List.map_singleton, List.intercalate_singleton, List.flatMap_singleton]
        exact first
      · have more : rest.map f ≠ [] := fun none => last (List.map_eq_nil_iff.mp none)
        rw [List.map_cons, List.intercalate_cons_of_ne_nil more, List.flatMap_cons]
        have whole := (first.append between).append later
        rwa [List.append_nil] at whole

end Reads

end EinkLiteOS.Theory
