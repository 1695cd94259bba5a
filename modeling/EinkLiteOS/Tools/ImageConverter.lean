/-
# Tools.ImageConverter -- from an image to a C array

`pixels_to_byte` and `image_array_to_c_array` of the converter script under `tools/`.
A string of binary digits is a list of characters; what raises an exception in Python
is `none`.  Of the C text only the bytes in it are kept.
-/
import EinkLiteOS.Theory.Quads
import EinkLiteOS.Theory.Slices

namespace EinkLiteOS.Tools

open EinkLiteOS.Theory
open EinkLiteOS.Theory.Quads (digit Spells)

set_option autoImplicit false

/-! ## The script -/

/-- A pixel of the image array. -/
structure Rgb where
  r : UInt8
  g : UInt8
  b : UInt8
  deriving DecidableEq, Repr

/-- `COLOR_MAP` -/
def colorMap : List (Rgb × List Char) :=
  [(⟨0, 0, 0⟩, ['0', '0']), (⟨255, 255, 255⟩, ['0', '1']), (⟨255, 255, 0⟩, ['1', '0']),
    (⟨255, 0, 0⟩, ['1', '1'])]

/-- `color_to_bits`: `COLOR_MAP.get((r, g, b), "00")` -/
def colorToBits (pixel : Rgb) : List Char := (colorMap.lookup pixel).getD ['0', '0']

/-- A binary digit. -/
def binaryDigit? (c : Char) : Option Nat :=
  if c = '0' then some 0 else if c = '1' then some 1 else none

/-- `int(s, 2)` -/
def intBase2 (s : List Char) : Option Nat :=
  if s = [] then none
  else s.foldlM (fun n c => (binaryDigit? c).map fun d => 2 * n + d) 0

/-- `n.to_bytes(1)` -/
def toByte (n : Nat) : Option UInt8 := if n < 256 then some (UInt8.ofNat n) else none

/-- `pixels_to_byte(pixel_group)` -/
def pixelsToByte (pixelGroup : List (List Char)) : Option UInt8 :=
  (intBase2 pixelGroup.flatten).bind toByte

/-- The byte string of `image_array_to_c_array(image_array)`.  The script flattens the
three channels one by one and reads them together again. -/
def imageArrayToBytes (imageArray : List (List Rgb)) : Option (List UInt8) :=
  let binaryArray := imageArray.flatten.map colorToBits
  ((List.range ((binaryArray.length + 3) / 4)).map (Slices.slice 4 binaryArray)).mapM pixelsToByte

/-! ## Four colours -/

/-- The colours of the panel. -/
inductive FourColor where
  | black
  | white
  | yellow
  | red
  deriving DecidableEq, Repr

namespace FourColor

instance : Fintype FourColor where
  elems := {black, white, yellow, red}
  complete := by
    intro c
    cases c <;> decide

/-- The colour in the image array. -/
def rgb : FourColor → Rgb
  | black => ⟨0, 0, 0⟩
  | white => ⟨255, 255, 255⟩
  | yellow => ⟨255, 255, 0⟩
  | red => ⟨255, 0, 0⟩

/-- Its two bits. -/
def code : FourColor → UInt8
  | black => 0
  | white => 1
  | yellow => 2
  | red => 3

@[simp] theorem code_eq_zero {c : FourColor} : c.code = 0 ↔ c = black := by
  cases c <;> decide

end FourColor

/-- The byte of one to four pixels: their bits stand at the right, and a short group
has zeros at the left. -/
def groupDigit (group : List FourColor) (j : Nat) : UInt8 :=
  if j < 4 - group.length then 0
  else (group.getD (j - (4 - group.length)) .black).code

/-- The converter's byte, digit by digit, for the four lengths of a group. -/
theorem pixelsToByte_digits {group : List FourColor} (nonempty : group ≠ [])
    (few : group.length ≤ 4) :
    (pixelsToByte (group.map fun c => colorToBits c.rgb)).map (fun b =>
        (List.range 4).map (digit b)) =
      some ((List.range 4).map (groupDigit group)) := by
  match group with
  | [] => exact absurd rfl nonempty
  | [a] =>
      revert a
      decide
  | [a, b] =>
      revert a b
      decide
  | [a, b, c] =>
      revert a b c
      decide +kernel
  | [a, b, c, d] =>
      revert a b c d
      decide +kernel
  | _ :: _ :: _ :: _ :: _ :: _ =>
      simp only [List.length_cons] at few
      omega

theorem pixelsToByte_group {group : List FourColor} (nonempty : group ≠ [])
    (few : group.length ≤ 4) :
    ∃ b, pixelsToByte (group.map fun c => colorToBits c.rgb) = some b ∧
      ∀ j < 4, digit b j = groupDigit group j := by
  obtain ⟨b, byte, digits⟩ := Option.map_eq_some_iff.mp (pixelsToByte_digits nonempty few)
  refine ⟨b, byte, ?_⟩
  intro j small
  exact List.map_inj_left.mp digits j (List.mem_range.mpr small)

/-- The digits the converter writes: pixel after pixel, and a short last group at the
right of its byte. -/
def packedDigit (colors : List FourColor) (i : Nat) : UInt8 :=
  groupDigit (Slices.slice 4 colors (i / 4)) (i % 4)

/-- A loop whose every round returns a value returns all of them. -/
theorem mapM_eq_some {α β : Type} {f : α → Option β} {xs : List α}
    (each : ∀ x ∈ xs, ∃ b, f x = some b) : ∃ ys, xs.mapM f = some ys ∧ xs.map f = ys.map some := by
  induction xs with
  | nil => exact ⟨[], rfl, rfl⟩
  | cons x rest ih =>
      obtain ⟨b, found⟩ := each x List.mem_cons_self
      obtain ⟨ys, collected, mapped⟩ := ih fun y member => each y (List.mem_cons_of_mem x member)
      refine ⟨b :: ys, ?_, ?_⟩
      · rw [List.mapM_cons, found, collected]
        rfl
      · rw [List.map_cons, List.map_cons, found, mapped]

/-- **The converter encodes every four-colour image**, four pixels to a byte in
reading order. -/
theorem imageArrayToBytes_spells {imageArray : List (List Rgb)} {colors : List FourColor}
    (pixels : imageArray.flatten = colors.map FourColor.rgb) :
    ∃ bytes, imageArrayToBytes imageArray = some bytes ∧
      Spells bytes ((colors.length + 3) / 4) (packedDigit colors) := by
  have groups : imageArrayToBytes imageArray =
      (List.range ((colors.length + 3) / 4)).mapM fun k =>
        pixelsToByte ((Slices.slice 4 colors k).map fun c => colorToBits c.rgb) := by
    simp only [imageArrayToBytes, pixels, List.map_map, List.length_map, List.mapM_map]
    refine congrArg (List.mapM · _) (funext ?_)
    intro k
    exact congrArg pixelsToByte (Slices.slice_map 4 _ colors k)
  have group : ∀ k < (colors.length + 3) / 4,
      ∃ b, pixelsToByte ((Slices.slice 4 colors k).map fun c => colorToBits c.rgb) = some b ∧
        ∀ j < 4, digit b j = groupDigit (Slices.slice 4 colors k) j := by
    intro k below
    refine pixelsToByte_group (Slices.slice_ne_nil (by decide) (by omega)) ?_
    rw [Slices.length_slice]
    exact Nat.min_le_left _ _
  have each : ∀ k ∈ List.range ((colors.length + 3) / 4),
      ∃ b, pixelsToByte ((Slices.slice 4 colors k).map fun c => colorToBits c.rgb) = some b := by
    intro k member
    obtain ⟨b, byte, -⟩ := group k (List.mem_range.mp member)
    exact ⟨b, byte⟩
  obtain ⟨bytes, collected, mapped⟩ := mapM_eq_some each
  have length : bytes.length = (colors.length + 3) / 4 := by
    rw [← List.length_map (f := some), ← mapped, List.length_map, List.length_range]
  refine ⟨bytes, groups.trans collected, Quads.spells_iff.mpr ⟨length, ?_⟩⟩
  intro a inside j small
  obtain ⟨b, byte, digits⟩ := group a (length ▸ inside)
  have found := congrArg (·[a]?) mapped
  simp only [List.getElem?_map, List.getElem?_range (length ▸ inside), Option.map_some, byte,
    List.getElem?_eq_getElem inside, Option.some.injEq] at found
  have quotient : (4 * a + j) / 4 = a := by omega
  have remainder : (4 * a + j) % 4 = j := by omega
  rw [← found, digits j small, packedDigit, quotient, remainder]

end EinkLiteOS.Tools
