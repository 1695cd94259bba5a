/-
# Device.PaintDot -- thick dots

`Paint_DrawPoint` draws a dot as a square of pixels.  `DOT_PIXEL` has no negative member,
so GCC makes it an `unsigned int`, and with it the coordinates of the square: the test that
should stop at the left and the top edge never does.  A coordinate below zero is truncated
to one of the last of 16 bits, behind every picture narrower than that, where
`Paint_SetPixel` drops it.  What is left is the part of the square on the picture
(`dot_clipped`).
-/
import EinkLiteOS.Device.PaintPixel
import Mathlib.Data.List.ProdSigma
import Mathlib.Data.List.TakeWhile
import Mathlib.Data.List.Nodup

namespace EinkLiteOS.Device

set_option autoImplicit false

/-- `DOT_PIXEL` -/
inductive DotPixel where
  | pixel1x1 | pixel2x2 | pixel3x3 | pixel4x4 | pixel5x5 | pixel6x6 | pixel7x7 | pixel8x8
  deriving DecidableEq, Repr

/-- The value of an enumerator. -/
def DotPixel.value : DotPixel → UInt32
  | pixel1x1 => 1
  | pixel2x2 => 2
  | pixel3x3 => 3
  | pixel4x4 => 4
  | pixel5x5 => 5
  | pixel6x6 => 6
  | pixel7x7 => 7
  | pixel8x8 => 8

/-- `DOT_STYLE` -/
inductive DotStyle where
  | fillAround | fillRightUp
  deriving DecidableEq, Repr

def dotStyleDft : DotStyle := .fillAround

/-- The values of a loop counter below `stop`. -/
def counts (stop : UInt32) : List UInt32 := (List.range stop.toNat).map UInt32.ofNat

/-- The points that the loops of `Paint_DrawPoint` pass to `Paint_SetPixel`.  The `break`
leaves the inner loop. -/
def dotPoints (xpoint ypoint : UInt16) (dotPixel : DotPixel) :
    DotStyle → List (UInt16 × UInt16)
  | .fillAround =>
      let x (xDirNum : UInt32) : UInt32 := xpoint.toUInt32 + xDirNum - dotPixel.value
      let y (yDirNum : UInt32) : UInt32 := ypoint.toUInt32 + yDirNum - dotPixel.value
      (counts (2 * dotPixel.value - 1)).flatMap fun xDirNum =>
        ((counts (2 * dotPixel.value - 1)).takeWhile fun yDirNum =>
          ¬ (x xDirNum < 0 ∨ y yDirNum < 0)).map fun yDirNum =>
            ((x xDirNum).toUInt16, (y yDirNum).toUInt16)
  | .fillRightUp =>
      (counts dotPixel.value).flatMap fun xDirNum =>
        (counts dotPixel.value).map fun yDirNum =>
          ((xpoint.toUInt32 + xDirNum - 1).toUInt16, (ypoint.toUInt32 + yDirNum - 1).toUInt16)

/-- The points of a dot, none when it starts off the picture. -/
def drawnDot (paint : Paint) (xpoint ypoint : UInt16) (dotPixel : DotPixel)
    (dotStyle : DotStyle) : List (UInt16 × UInt16) :=
  if xpoint > paint.width ∨ ypoint > paint.height then []
  else dotPoints xpoint ypoint dotPixel dotStyle

/-- `Paint_DrawPoint` -/
def paintDrawPoint (paint : Paint) (xpoint ypoint color : UInt16) (dotPixel : DotPixel)
    (dotStyle : DotStyle) : Paint :=
  (drawnDot paint xpoint ypoint dotPixel dotStyle).foldl
    (fun paint p => paintSetPixel paint p.1 p.2 color) paint

@[simp] theorem length_paintDrawPoint (paint : Paint) (xpoint ypoint color : UInt16)
    (dotPixel : DotPixel) (dotStyle : DotStyle) :
    (paintDrawPoint paint xpoint ypoint color dotPixel dotStyle).image.length =
      paint.image.length :=
  length_foldl (fun _ _ => length_paintSetPixel ..) _ _

/-! ## One side of the square -/

/-- The coordinates of the square along one axis, truncated. -/
def side (z : UInt16) (dotPixel : DotPixel) : List UInt16 :=
  (counts (2 * dotPixel.value - 1)).map fun n => (z.toUInt32 + n - dotPixel.value).toUInt16

theorem value_bounds (dotPixel : DotPixel) :
    1 ≤ dotPixel.value.toNat ∧ dotPixel.value.toNat ≤ 8 ∧
      (2 * dotPixel.value - 1).toNat = 2 * dotPixel.value.toNat - 1 := by
  cases dotPixel <;> decide

theorem mem_counts {stop n : UInt32} : n ∈ counts stop ↔ n < stop := by
  have bounded := stop.toNat_lt
  simp only [counts]
  simp only [List.mem_map, List.mem_range, UInt32.lt_iff_toNat_lt]
  constructor
  · rintro ⟨m, below, rfl⟩
    rwa [UInt32.toNat_ofNat_of_lt' (Nat.lt_trans below bounded)]
  · intro below
    exact ⟨n.toNat, below, UInt32.ofNat_toNat⟩

/-- A coordinate of the square, before and after it wraps. -/
theorem toNat_side (z : UInt16) (dotPixel : DotPixel) (n : UInt32) :
    ((z.toUInt32 + n - dotPixel.value).toUInt16).toNat =
      (65536 + z.toNat + n.toNat - dotPixel.value.toNat) % 65536 := by
  obtain ⟨low, high, sides⟩ := value_bounds dotPixel
  have bounded := z.toNat_lt
  rw [UInt32.toNat_toUInt16, UInt32.toNat_sub, UInt32.toNat_add, UInt16.toNat_toUInt32]
  omega

/-- On a picture that ends before the wrapped coordinates begin, a side is cut off at the
edges and nowhere else. -/
theorem mem_side_iff {z bound w : UInt16} (narrow : bound < 65528) (onPicture : z < bound)
    (dotPixel : DotPixel) (inPicture : w < bound) :
    w ∈ side z dotPixel ↔
      z.toNat ≤ w.toNat + dotPixel.value.toNat ∧
        w.toNat + dotPixel.value.toNat < z.toNat + (2 * dotPixel.value.toNat - 1) := by
  obtain ⟨low, high, sides⟩ := value_bounds dotPixel
  have last : (65528 : UInt16).toNat = 65528 := rfl
  rw [UInt16.lt_iff_toNat_lt] at narrow onPicture inPicture
  simp only [side]
  simp only [List.mem_map, mem_counts]
  constructor
  · rintro ⟨n, inSquare, rfl⟩
    rw [toNat_side] at *
    rw [UInt32.lt_iff_toNat_lt, sides] at inSquare
    omega
  · rintro ⟨left, right⟩
    have short : w.toNat + dotPixel.value.toNat - z.toNat < 2 ^ 32 := by omega
    have place : (UInt32.ofNat (w.toNat + dotPixel.value.toNat - z.toNat)).toNat =
        w.toNat + dotPixel.value.toNat - z.toNat := UInt32.toNat_ofNat_of_lt' short
    have inSquare : UInt32.ofNat (w.toNat + dotPixel.value.toNat - z.toNat) <
        2 * dotPixel.value - 1 := by
      rw [UInt32.lt_iff_toNat_lt, sides, place]
      omega
    refine ⟨_, inSquare, ?_⟩
    rw [← UInt16.toNat_inj, toNat_side, place]
    omega

theorem nodup_side (z : UInt16) (dotPixel : DotPixel) : (side z dotPixel).Nodup := by
  obtain ⟨low, high, sides⟩ := value_bounds dotPixel
  have counted : (counts (2 * dotPixel.value - 1)).Nodup := by
    simp only [counts]
    refine List.Nodup.map_on ?_ List.nodup_range
    intro a inside b inside' same
    have bounded := (2 * dotPixel.value - 1).toNat_lt
    have small := Nat.lt_trans (List.mem_range.mp inside) bounded
    have small' := Nat.lt_trans (List.mem_range.mp inside') bounded
    have values := congrArg UInt32.toNat same
    rwa [UInt32.toNat_ofNat_of_lt' small, UInt32.toNat_ofNat_of_lt' small'] at values
  refine counted.map_on ?_
  intro a inside b inside' same
  rw [mem_counts] at inside inside'
  have values := congrArg UInt16.toNat same
  rw [toNat_side, toNat_side] at values
  rw [UInt32.lt_iff_toNat_lt, sides] at inside inside'
  rw [← UInt32.toNat_inj]
  omega

/-- The test against the edges never stops the inner loop: nothing unsigned is below zero. -/
theorem dotPoints_eq (xpoint ypoint : UInt16) (dotPixel : DotPixel) :
    dotPoints xpoint ypoint dotPixel .fillAround =
      (side xpoint dotPixel).product (side ypoint dotPixel) := by
  have never : ∀ z : UInt32, ¬ z < 0 := fun z => UInt32.not_lt_zero
  simp only [dotPoints, side, List.product]
  simp only [never, or_self, not_false_eq_true, decide_true, List.flatMap_map, List.map_map]
  congr 1
  funext xDirNum
  rw [List.takeWhile_eq_self_iff.mpr fun _ _ => rfl]
  rfl

/-! ## The square on the picture -/

/-- The point is on the square of side `2 d - 1` whose first corner is `(x - d, y - d)`. -/
def InSquare (x y : UInt16) (dotPixel : DotPixel) (p : UInt16 × UInt16) : Prop :=
  let d : Int := dotPixel.value.toNat
  (x.toNat - d ≤ p.1.toNat ∧ p.1.toNat < x.toNat - d + (2 * d - 1)) ∧
    (y.toNat - d ≤ p.2.toNat ∧ p.2.toNat < y.toNat - d + (2 * d - 1))

/-- **Dots are clipped, not dropped.**  Of the points a dot is drawn with, those on the
picture are the points of the square on the picture, each once. -/
theorem dot_clipped {paint : Paint} (narrow : paint.width < 65528) (low : paint.height < 65528)
    {x y : UInt16} (inside : InPicture paint x y) (dotPixel : DotPixel) :
    let onScreen := (drawnDot paint x y dotPixel .fillAround).filter fun p =>
      InPicture paint p.1 p.2
    onScreen.Nodup ∧
      ∀ p, p ∈ onScreen ↔ InPicture paint p.1 p.2 ∧ InSquare x y dotPixel p := by
  have drawn : drawnDot paint x y dotPixel .fillAround =
      (side x dotPixel).product (side y dotPixel) := by
    have onPicture : ¬ (x > paint.width ∨ y > paint.height) := by
      simp [UInt16.le_of_lt inside.1, UInt16.le_of_lt inside.2]
    rw [drawnDot, if_neg onPicture, dotPoints_eq]
  intro onScreen
  constructor
  · apply List.Nodup.filter
    rw [drawn]
    exact (nodup_side x dotPixel).product (nodup_side y dotPixel)
  · rintro ⟨px, py⟩
    have clipped : InPicture paint px py → ((px, py) ∈ (side x dotPixel).product (side y dotPixel) ↔
        InSquare x y dotPixel (px, py)) := by
      intro inPicture
      rw [List.pair_mem_product, mem_side_iff narrow inside.1 dotPixel inPicture.1,
        mem_side_iff low inside.2 dotPixel inPicture.2]
      simp only [InSquare]
      grind
    show (px, py) ∈ (drawnDot paint x y dotPixel .fillAround).filter _ ↔ _
    rw [List.mem_filter, drawn, decide_eq_true_eq]
    constructor
    · rintro ⟨member, inPicture⟩
      exact ⟨inPicture, (clipped inPicture).mp member⟩
    · rintro ⟨inPicture, square⟩
      exact ⟨(clipped inPicture).mpr square, inPicture⟩

/-- The corner of a small picture, with the largest dot. -/
theorem dot_clipped_corner :
    let paint := paintNewImage [0, 0, 0] 3 3 rotate0 white
    let onScreen := (drawnDot paint 0 0 .pixel8x8 .fillAround).filter fun p =>
      InPicture paint p.1 p.2
    onScreen.Nodup ∧
      ∀ p, p ∈ onScreen ↔ InPicture paint p.1 p.2 ∧ InSquare 0 0 .pixel8x8 p := by
  intro paint
  exact dot_clipped (show paint.width < 65528 by decide) (by decide) (by decide) .pixel8x8

end EinkLiteOS.Device
