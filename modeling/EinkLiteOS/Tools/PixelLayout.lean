/-
# Tools.PixelLayout -- the converter's image and the firmware's

The converter packs the pixels of an image in reading order, four to a byte, and a
last group of fewer than four at the right of its byte.  The firmware gives every row
its own bytes and draws from the left.  `layouts_agree_iff` says for which images the
two byte strings are the same.
-/
import EinkLiteOS.Device.GuiPaint
import EinkLiteOS.Theory.Padding
import EinkLiteOS.Tools.ImageConverter
import Mathlib.Data.UInt

namespace EinkLiteOS.Tools

open EinkLiteOS.Theory
open EinkLiteOS.Theory.Quads (Spells)
open EinkLiteOS.Theory.Padding (ZeroFrom padded packed)
open EinkLiteOS.Device (Paint fourColorPaint paintPixels rowBytes toNat_rowBytes_four)

set_option autoImplicit false

/-- An image of `width` by `height` pixels, 1 to 65535 each way, in the four colours. -/
structure Picture where
  width : UInt16
  height : UInt16
  color : Nat → Nat → FourColor
  wide : 0 < width.toNat
  high : 0 < height.toNat

/-- The colour constant of `GUI_Paint.h`. -/
def FourColor.paint : FourColor → UInt16
  | black => Device.black
  | white => Device.white
  | yellow => Device.yellow
  | red => Device.red

namespace Picture

variable (pic : Picture)

/-- The image array the converter gets: rows of pixels. -/
def imageArray : List (List Rgb) :=
  (List.range pic.height.toNat).map fun y =>
    (List.range pic.width.toNat).map fun x => (pic.color x y).rgb

/-- The cleared cache after `Paint_NewImage(buf, w, h, ROTATE_0, WHITE)`,
`Paint_SetScale(4)` and `Paint_SetPixel` for the points of `order`. -/
def painted (order : List (Nat × Nat)) : List UInt8 :=
  (paintPixels (fourColorPaint pic.width pic.height) (fun x y => (pic.color x y).paint)
    order).image

/-- The order visits every pixel of the image, and nothing else. -/
def Visits (order : List (Nat × Nat)) : Prop :=
  ∀ x y, (x, y) ∈ order ↔ x < pic.width.toNat ∧ y < pic.height.toNat

/-- **The converter and the firmware agree** on the image. -/
def LayoutsAgree (order : List (Nat × Nat)) : Prop :=
  imageArrayToBytes pic.imageArray = some (pic.painted order)

/-- No row needs padding; or there is one row, and the pixels of its last, short group
are black; or there are two or three rows of `4 k + 3` pixels, and all but the first
are black. -/
def LayoutsMeet : Prop :=
  pic.width.toNat % 4 = 0 ∨
    (pic.height.toNat = 1 ∧ ∀ x < pic.width.toNat, pic.width.toNat - pic.width.toNat % 4 ≤ x →
      pic.color x 0 = .black) ∨
    (pic.width.toNat % 4 = 3 ∧ 1 < pic.height.toNat ∧ pic.height.toNat ≤ 3 ∧
      ∀ x < pic.width.toNat, ∀ y < pic.height.toNat, 0 < y → pic.color x y = .black)

/-- The pixels in reading order. -/
def colors : List FourColor :=
  (List.range pic.height.toNat).flatMap fun y =>
    (List.range pic.width.toNat).map fun x => pic.color x y

/-- The codes of the pixels in reading order. -/
def flat (i : Nat) : UInt8 := (pic.color (i % pic.width.toNat) (i / pic.width.toNat)).code

theorem imageArray_flatten : pic.imageArray.flatten = pic.colors.map FourColor.rgb := by
  rw [colors, List.map_flatMap, List.flatMap_def]
  simp only [imageArray, List.map_map, Function.comp_def]

theorem colors_eq : pic.colors =
    (List.range (pic.width.toNat * pic.height.toNat)).map fun i =>
      pic.color (i % pic.width.toNat) (i / pic.width.toNat) :=
  Padding.flatMap_grid _ _ pic.color

theorem colors_length : pic.colors.length = pic.width.toNat * pic.height.toNat := by
  rw [colors_eq, List.length_map, List.length_range]

theorem flat_at {x : Nat} (inRow : x < pic.width.toNat) (y : Nat) :
    pic.flat (pic.width.toNat * y + x) = (pic.color x y).code := by
  rw [flat, Nat.mul_add_mod, Nat.mod_eq_of_lt inRow, Nat.mul_add_div pic.wide,
    Nat.div_eq_of_lt inRow, Nat.add_zero]

theorem getD_colors {i : Nat} (inside : i < pic.width.toNat * pic.height.toNat) :
    (pic.colors.getD i .black).code = pic.flat i := by
  rw [List.getD_eq_getElem?_getD, colors_eq, List.getElem?_map, List.getElem?_range inside]
  rfl

/-- The converter's digits are the pixels in one run. -/
theorem packedDigit_colors (i : Nat) :
    packedDigit pic.colors i = packed (pic.width.toNat * pic.height.toNat) pic.flat i := by
  rw [packedDigit, groupDigit, Slices.length_slice, colors_length, Nat.mul_comm (i / 4) 4]
  simp only [packed]
  split
  · rfl
  case isFalse late =>
    rw [List.getD_eq_getElem?_getD, Slices.slice, List.getElem?_take_of_lt (by omega),
      List.getElem?_drop, ← List.getD_eq_getElem?_getD, getD_colors pic (by omega)]
    exact congrArg pic.flat (by omega)

/-- The firmware's digits are the pixels in padded rows. -/
theorem grid_colors {order : List (Nat × Nat)} (visits : pic.Visits order) {i : Nat}
    (below : i < 4 * ((rowBytes pic.width 4).toNat * pic.height.toNat)) :
    Device.grid pic.width (fun x y =>
        if (x, y) ∈ order then ((pic.color x y).paint % 4).toUInt8 else 0) i =
      padded pic.width.toNat pic.flat i := by
  have code : ∀ c : FourColor, (c.paint % 4).toUInt8 = c.code := by
    intro c
    cases c <;> decide
  have inColumn : i / (4 * (rowBytes pic.width 4).toNat) < pic.height.toNat := by
    rw [← Nat.mul_assoc] at below
    exact Nat.div_lt_of_lt_mul below
  rw [toNat_rowBytes_four] at inColumn
  rw [Device.grid, toNat_rowBytes_four]
  simp only [padded, code]
  by_cases inRow : i % (4 * ((pic.width.toNat + 3) / 4)) < pic.width.toNat
  · rw [if_pos ((visits _ _).mpr ⟨inRow, inColumn⟩), if_pos inRow, flat_at pic inRow]
  · rw [if_neg fun member => inRow ((visits _ _).mp member).1, if_neg inRow]

/-- The agreement of the byte strings is that of the two layouts of the pixels. -/
theorem layoutsAgree_iff_agree {order : List (Nat × Nat)} (visits : pic.Visits order) :
    pic.LayoutsAgree order ↔ Padding.Agree pic.width.toNat pic.height.toNat pic.flat := by
  obtain ⟨bytes, encoded, converter⟩ := imageArrayToBytes_spells pic.imageArray_flatten
  have cleared : Spells (fourColorPaint pic.width pic.height).image
      ((rowBytes pic.width 4).toNat * pic.height.toNat) (Device.grid pic.width fun _ _ => 0) :=
    Quads.spells_replicate_zero _
  have firmware := Device.paintPixels_spells
    (Device.fourColorPaint_isFourColor pic.width pic.height) (fun x y => (pic.color x y).paint)
    order (fun p member => (visits p.1 p.2).mp member) cleared
  rw [colors_length] at converter
  rw [LayoutsAgree, encoded, Option.some_inj, eq_comm, painted, firmware.eq_iff converter,
    Padding.Agree, toNat_rowBytes_four]
  refine and_congr_right fun _ => forall_congr' fun i => imp_congr_right ?_
  intro below
  rw [grid_colors pic visits (by rwa [toNat_rowBytes_four]), packedDigit_colors]

/-- In one row. -/
theorem zeroFrom_row (k : Nat) :
    ZeroFrom pic.flat k pic.width.toNat ↔
      ∀ x < pic.width.toNat, k ≤ x → pic.color x 0 = .black := by
  have at' : ∀ x < pic.width.toNat, pic.flat x = (pic.color x 0).code := by
    intro x inRow
    have found := flat_at pic inRow 0
    rwa [Nat.mul_zero, Nat.zero_add] at found
  constructor
  · intro zero x inRow low
    exact FourColor.code_eq_zero.mp ((at' x inRow).symm.trans (zero x low inRow))
  · intro blank x low inRow
    rw [at' x inRow, blank x inRow low]
    rfl

/-- From the second row on. -/
theorem zeroFrom_rows :
    ZeroFrom pic.flat pic.width.toNat (pic.width.toNat * pic.height.toNat) ↔
      ∀ x < pic.width.toNat, ∀ y < pic.height.toNat, 0 < y → pic.color x y = .black := by
  constructor
  · intro zero x inRow y inColumn later
    have low : pic.width.toNat ≤ pic.width.toNat * y + x :=
      Nat.le_add_right_of_le (Nat.le_mul_of_pos_right _ later)
    have high : pic.width.toNat * y + x < pic.width.toNat * pic.height.toNat := by
      calc pic.width.toNat * y + x < pic.width.toNat * y + pic.width.toNat :=
            Nat.add_lt_add_left inRow _
        _ = pic.width.toNat * (y + 1) := (Nat.mul_succ _ _).symm
        _ ≤ pic.width.toNat * pic.height.toNat := Nat.mul_le_mul_left _ inColumn
    exact FourColor.code_eq_zero.mp ((flat_at pic inRow y).symm.trans (zero _ low high))
  · intro blank f low high
    have later : 0 < f / pic.width.toNat := Nat.div_pos low pic.wide
    rw [flat, blank _ (Nat.mod_lt f pic.wide) _ (Nat.div_lt_of_lt_mul high) later]
    rfl

end Picture

/-- **The converter and the firmware lay out the same bytes exactly when the layouts
meet**, whatever the order the pixels are set in. -/
theorem layouts_agree_iff (pic : Picture) (order : List (Nat × Nat))
    (visits : pic.Visits order) : pic.LayoutsAgree order ↔ pic.LayoutsMeet := by
  rw [Picture.layoutsAgree_iff_agree pic visits, Padding.agree_iff pic.high, Picture.zeroFrom_row,
    Picture.zeroFrom_rows]
  rfl

/-- Two rows of five pixels, the second one black. -/
def halfBlack : Picture :=
  ⟨5, 2, fun _ y => if y = 0 then .red else .black, by decide, by decide⟩

/-- The pixels of `halfBlack`, row by row. -/
def rowByRow : List (Nat × Nat) :=
  (List.range 2).flatMap fun y => (List.range 5).map fun x => (x, y)

theorem half_black_layouts : halfBlack.LayoutsAgree rowByRow ↔ halfBlack.LayoutsMeet := by
  have visits : halfBlack.Visits rowByRow := by
    intro x y
    simp [rowByRow, halfBlack, and_comm]
  exact layouts_agree_iff halfBlack rowByRow visits

/-- One white pixel. -/
def whitePixel : Picture := ⟨1, 1, fun _ _ => .white, by decide, by decide⟩

theorem whitePixel_visits : whitePixel.Visits [(0, 0)] := by
  intro x y
  simp [whitePixel]

/-- The converter writes a white pixel as `01`, the firmware as `40`. -/
theorem white_pixel_differs :
    ¬ ∀ (pic : Picture) (order : List (Nat × Nat)), pic.Visits order → pic.LayoutsAgree order := by
  intro all
  have agree : imageArrayToBytes whitePixel.imageArray = some (whitePixel.painted [(0, 0)]) :=
    all whitePixel [(0, 0)] whitePixel_visits
  exact absurd agree (by decide +kernel)

end EinkLiteOS.Tools
