/-
# Device.PaintClear -- clearing a picture

`Paint_Clear` stores one byte all over the buffer; `Paint_ClearWindows` draws the pixels of
a window one by one.  Over the whole picture the two agree in every pixel, except that the
byte of a two-colour picture is the colour itself: `WHITE` is `0x01`, which sets one pixel
in eight (`clear_agrees_iff`).
-/
import EinkLiteOS.Device.PaintPixel

namespace EinkLiteOS.Device

open EinkLiteOS.Theory.BitFields

set_option autoImplicit false

/-- The values of a counter from `start` while it is below `stop`. -/
def countTo (start stop : UInt16) : List UInt16 :=
  (List.range' start.toNat (stop.toNat - start.toNat)).map UInt16.ofNat

theorem mem_countTo {start stop z : UInt16} : z ∈ countTo start stop ↔ start ≤ z ∧ z < stop := by
  have bounded := stop.toNat_lt
  simp only [countTo]
  simp only [List.mem_map, List.mem_range'_1, UInt16.le_iff_toNat_le, UInt16.lt_iff_toNat_lt]
  constructor
  · rintro ⟨n, inRange, rfl⟩
    have below : n < 2 ^ 16 := by omega
    rw [UInt16.toNat_ofNat_of_lt' below]
    omega
  · intro between
    exact ⟨z.toNat, by omega, UInt16.ofNat_toNat⟩

/-- `Paint_Clear` -/
def paintClear (paint : Paint) (color : UInt16) : Paint :=
  let fill (byte : UInt8) : Paint :=
    (countTo 0 paint.heightByte).foldl (fun paint y =>
      (countTo 0 paint.widthByte).foldl (fun paint x =>
        let addr := x.toNat + y.toNat * paint.widthByte.toNat
        { paint with image := paint.image.set addr byte }) paint) paint
  let c := color.toUInt32
  if paint.scale = 2 then fill c.toUInt8
  else if paint.scale = 4 then fill (c <<< 6 ||| c <<< 4 ||| c <<< 2 ||| c).toUInt8
  else if paint.scale = 6 ∨ paint.scale = 7 then fill (c <<< 4 ||| c).toUInt8
  else paint

/-- `Paint_ClearWindows` -/
def paintClearWindows (paint : Paint) (xstart ystart xend yend color : UInt16) : Paint :=
  (countTo ystart yend).foldl (fun paint y =>
    (countTo xstart xend).foldl (fun paint x => paintSetPixel paint x y color) paint) paint

@[simp] theorem length_paintClear (paint : Paint) (color : UInt16) :
    (paintClear paint color).image.length = paint.image.length := by
  have fill : ∀ byte : UInt8, ((countTo 0 paint.heightByte).foldl (fun paint y =>
      (countTo 0 paint.widthByte).foldl (fun paint x =>
        { paint with
          image := paint.image.set (x.toNat + y.toNat * paint.widthByte.toNat) byte }) paint)
      paint).image.length = paint.image.length := by
    intro byte
    refine length_foldl (fun paint y => ?_) _ _
    exact length_foldl (fun paint x => List.length_set) _ _
  unfold paintClear
  dsimp only
  split
  · exact fill _
  · split
    · exact fill _
    · split
      · exact fill _
      · rfl

/-! ## The fast way -/

/-- The byte `Paint_Clear` fills the buffer with. -/
def clearByte (scale color : UInt16) : UInt8 :=
  let c := color.toUInt32
  if scale = 2 then c.toUInt8
  else if scale = 4 then (c <<< 6 ||| c <<< 4 ||| c <<< 2 ||| c).toUInt8
  else (c <<< 4 ||| c).toUInt8

/-- A byte stored at some places. -/
theorem getElem?_foldl_set (byte : UInt8) (places : List Nat) (image : List UInt8) (i : Nat) :
    (places.foldl (fun image a => image.set a byte) image)[i]? =
      if i ∈ places then image[i]?.map fun _ => byte else image[i]? := by
  induction places generalizing image with
  | nil => simp
  | cons a rest ih =>
      rw [List.foldl_cons, ih, List.getElem?_set]
      by_cases here : a = i
      · subst here
        by_cases inside : a < image.length <;> simp [inside]
      · have other : i ≠ a := fun same => here same.symm
        simp [here, other]

/-- The loops of `Paint_Clear` store in every row, from its first byte to its last. -/
def clearPlaces (paint : Paint) : List Nat :=
  (countTo 0 paint.heightByte).flatMap fun y =>
    (countTo 0 paint.widthByte).map fun x => x.toNat + y.toNat * paint.widthByte.toNat

theorem mem_clearPlaces {paint : Paint} {i : Nat} :
    i ∈ clearPlaces paint ↔ i < paint.widthByte.toNat * paint.heightByte.toNat := by
  simp only [clearPlaces]
  simp only [List.mem_flatMap, List.mem_map, mem_countTo, UInt16.lt_iff_toNat_lt]
  constructor
  · rintro ⟨y, ⟨-, row⟩, x, ⟨-, column⟩, rfl⟩
    exact rowMajor_lt column row
  · intro below
    have positive : 0 < paint.widthByte.toNat := by
      rcases Nat.eq_zero_or_pos paint.widthByte.toNat with zero | positive
      · rw [zero, Nat.zero_mul] at below
        exact absurd below (Nat.not_lt_zero i)
      · exact positive
    have column := Nat.mod_lt i positive
    have row := Nat.div_lt_of_lt_mul below
    have xValue : (UInt16.ofNat (i % paint.widthByte.toNat)).toNat = i % paint.widthByte.toNat :=
      UInt16.toNat_ofNat_of_lt' (Nat.lt_trans column paint.widthByte.toNat_lt)
    have yValue : (UInt16.ofNat (i / paint.widthByte.toNat)).toNat = i / paint.widthByte.toNat :=
      UInt16.toNat_ofNat_of_lt' (Nat.lt_trans row paint.heightByte.toNat_lt)
    refine ⟨UInt16.ofNat (i / paint.widthByte.toNat), ⟨UInt16.zero_le, ?_⟩,
      UInt16.ofNat (i % paint.widthByte.toNat), ⟨UInt16.zero_le, ?_⟩, ?_⟩
    · rwa [yValue]
    · rwa [xValue]
    · rw [xValue, yValue, Nat.mul_comm, Nat.mod_add_div]

theorem paintClear_eq {paint : Paint} (scaling : IsScale paint.scale) (color : UInt16) :
    paintClear paint color = paintSelectImage paint
      ((clearPlaces paint).foldl (fun image a => image.set a (clearByte paint.scale color))
        paint.image) := by
  -- the loops change nothing but the buffer
  have column : ∀ (byte : UInt8) (y : UInt16) (image : List UInt8),
      (countTo 0 (paintSelectImage paint image).widthByte).foldl (fun paint x =>
          { paint with image := paint.image.set (x.toNat + y.toNat * paint.widthByte.toNat) byte })
        (paintSelectImage paint image) =
      paintSelectImage paint ((countTo 0 paint.widthByte).foldl (fun image x =>
        image.set (x.toNat + y.toNat * paint.widthByte.toNat) byte) image) :=
    fun byte y image => List.foldl_hom (paintSelectImage paint) fun _ _ => rfl
  have fill : ∀ byte : UInt8,
      (countTo 0 paint.heightByte).foldl (fun paint y =>
          (countTo 0 paint.widthByte).foldl (fun paint x =>
            { paint with
              image := paint.image.set (x.toNat + y.toNat * paint.widthByte.toNat) byte }) paint)
        paint =
      paintSelectImage paint
        ((clearPlaces paint).foldl (fun image a => image.set a byte) paint.image) := by
    intro byte
    simp only [clearPlaces]
    rw [List.foldl_flatMap]
    simp only [List.foldl_map]
    exact List.foldl_hom (paintSelectImage paint) fun image y => column byte y image
  simp only [paintClear, clearByte]
  obtain scale | scale | scale | scale := scaling <;> simp only [scale] <;> exact fill _

/-- Every pixel of a cleared picture is a field of the byte it was cleared with. -/
theorem pixelField_paintClear {paint : Paint} (coherent : Coherent paint) (fills : Fills paint)
    (color : UInt16) {x y : UInt16} (inside : InPicture paint x y) :
    pixelField (paintClear paint color) x y =
      some (field (pixelsPerByte paint.scale).toNat (clearByte paint.scale color)
        ((memoryPoint paint x y).1.toNat % (pixelsPerByte paint.scale).toNat)) := by
  obtain ⟨-, inRow, inColumn⟩ := drawn_of_inside coherent inside
  have below := pointAddress_lt coherent inRow inColumn
  have place := mem_clearPlaces.mpr below
  rw [← fills] at below
  rw [paintClear_eq coherent.scaling, pixelField_selectImage, fieldAt, pixelIndex_div,
    pixelIndex_mod, getElem?_foldl_set, if_pos place, List.getElem?_eq_getElem below]
  rfl

/-! ## The slow way -/

/-- Pixels of the picture drawn in one colour. -/
theorem pixelField_draw {paint : Paint} (coherent : Coherent paint) (fills : Fills paint)
    {color : UInt16} (fits : FitsScale paint.scale color) (points : List (UInt16 × UInt16))
    (inPicture : ∀ p ∈ points, InPicture paint p.1 p.2) {x y : UInt16}
    (inside : InPicture paint x y) :
    pixelField (points.foldl (fun paint p => paintSetPixel paint p.1 p.2 color) paint) x y =
      if (x, y) ∈ points then some (storedColor paint.scale color)
      else pixelField paint x y := by
  induction points generalizing paint with
  | nil => rfl
  | cons p rest ih =>
      have inside' := inPicture p List.mem_cons_self
      have drawn := pixelField_paintSetPixel coherent fills inside' inside fits
      obtain ⟨image, length, frame⟩ := paintSetPixel_frame coherent p.1 p.2 color
      rw [frame] at drawn
      rw [List.foldl_cons, frame, ih (paintSelectImage_coherent coherent image)
        (length.trans fills) fits (fun q member => inPicture q (List.mem_cons_of_mem _ member))
        inside, drawn]
      by_cases here : (x, y) = p
      · rw [if_pos here, if_pos (List.mem_cons.mpr (Or.inl here))]
        exact ite_self _
      · rw [if_neg here]
        simp only [List.mem_cons, here, false_or]
        rfl

/-- The points a window is cleared at. -/
def windowPoints (xstart ystart xend yend : UInt16) : List (UInt16 × UInt16) :=
  (countTo ystart yend).flatMap fun y => (countTo xstart xend).map fun x => (x, y)

theorem mem_windowPoints {xstart ystart xend yend x y : UInt16} :
    (x, y) ∈ windowPoints xstart ystart xend yend ↔
      (ystart ≤ y ∧ y < yend) ∧ xstart ≤ x ∧ x < xend := by
  simp only [windowPoints]
  simp only [List.mem_flatMap, List.mem_map, mem_countTo, Prod.mk.injEq]
  constructor
  · rintro ⟨y', inRows, x', inRow, rfl, rfl⟩
    exact ⟨inRows, inRow⟩
  · rintro ⟨inRows, inRow⟩
    exact ⟨y, inRows, x, inRow, rfl, rfl⟩

theorem paintClearWindows_eq (paint : Paint) (xstart ystart xend yend color : UInt16) :
    paintClearWindows paint xstart ystart xend yend color =
      (windowPoints xstart ystart xend yend).foldl
        (fun paint p => paintSetPixel paint p.1 p.2 color) paint := by
  simp only [paintClearWindows, windowPoints]
  rw [List.foldl_flatMap]
  simp only [List.foldl_map]

/-- Every pixel of a picture cleared pixel by pixel. -/
theorem pixelField_paintClearWindows {paint : Paint} (coherent : Coherent paint)
    (fills : Fills paint) {color : UInt16} (fits : FitsScale paint.scale color) {x y : UInt16}
    (inside : InPicture paint x y) :
    pixelField (paintClearWindows paint 0 0 paint.width paint.height color) x y =
      some (storedColor paint.scale color) := by
  have everywhere : ∀ p ∈ windowPoints 0 0 paint.width paint.height, InPicture paint p.1 p.2 := by
    rintro ⟨x', y'⟩ member
    obtain ⟨⟨-, inRows⟩, -, inRow⟩ := mem_windowPoints.mp member
    exact ⟨inRow, inRows⟩
  rw [paintClearWindows_eq, pixelField_draw coherent fills fits _ everywhere inside]
  apply if_pos
  exact mem_windowPoints.mpr ⟨⟨UInt16.zero_le, inside.2⟩, UInt16.zero_le, inside.1⟩

/-! ## Agreement -/

/-- The colours `GUI_Paint.h` defines for a scale. -/
def IsPalette (scale color : UInt16) : Prop :=
  color = black ∨ color = white ∨ scale ≠ 2 ∧ (color = yellow ∨ color = red)

theorem IsPalette.fits {scale color : UInt16} (palette : IsPalette scale color) :
    FitsScale scale color := by
  have small : color < 16 := by
    obtain rfl | rfl | ⟨-, rfl | rfl⟩ := palette <;> decide
  exact Or.inr (Or.inr small)

/-- Some pixel of a picture that has any lies at the corner of the cache. -/
theorem exists_corner {paint : Paint} (coherent : Coherent paint) (wide : 0 < paint.widthMemory)
    (high : 0 < paint.heightMemory) :
    ∃ x y, InPicture paint x y ∧ memoryPoint paint x y = (0, 0) := by
  let u := turnIf (turnsX paint.rotate paint.mirror) paint.widthMemory 0
  let v := turnIf (turnsY paint.rotate paint.mirror) paint.heightMemory 0
  have along : alongRow paint.rotate (alongRow paint.rotate u v) (acrossRows paint.rotate u v) =
      u := by
    simp only [alongRow, acrossRows]
    cases upright paint.rotate <;> rfl
  have across : acrossRows paint.rotate (alongRow paint.rotate u v)
      (acrossRows paint.rotate u v) = v := by
    simp only [alongRow, acrossRows]
    cases upright paint.rotate <;> rfl
  refine ⟨alongRow paint.rotate u v, acrossRows paint.rotate u v, ?_, ?_⟩
  · rw [inPicture_iff coherent, along, across]
    exact ⟨turnIf_lt wide, turnIf_lt high⟩
  · simp only [memoryPoint]
    rw [along, across, turnIf_turnIf, turnIf_turnIf, Bool.xor_self, Bool.xor_self]
    rfl

theorem forall_named {P : UInt16 → Prop} (ofBlack : P black) (ofWhite : P white)
    (ofYellow : P yellow) (ofRed : P red) : ∀ c ∈ [black, white, yellow, red], P c := by
  intro c member
  simp only [List.mem_cons, List.not_mem_nil, or_false] at member
  rcases member with rfl | rfl | rfl | rfl
  · exact ofBlack
  · exact ofWhite
  · exact ofYellow
  · exact ofRed

/-- The byte of a clear, field by field. -/
theorem field_clearByte {scale color : UInt16} (scaling : IsScale scale)
    (palette : IsPalette scale color) (ordinary : ¬ (scale = 2 ∧ color = white)) {j : Nat}
    (small : j < (pixelsPerByte scale).toNat) :
    field (pixelsPerByte scale).toNat (clearByte scale color) j = storedColor scale color := by
  have two : ∀ j < 8, field 8 (clearByte 2 black) j = storedColor 2 black := by decide
  have four : ∀ c ∈ [black, white, yellow, red], ∀ j < 4,
      field 4 (clearByte 4 c) j = storedColor 4 c :=
    forall_named (by decide) (by decide) (by decide) (by decide)
  have six : ∀ c ∈ [black, white, yellow, red], ∀ j < 2,
      field 2 (clearByte 6 c) j = storedColor 6 c :=
    forall_named (by decide) (by decide) (by decide) (by decide)
  have seven : ∀ c ∈ [black, white, yellow, red], ∀ j < 2,
      field 2 (clearByte 7 c) j = storedColor 7 c :=
    forall_named (by decide) (by decide) (by decide) (by decide)
  have named : color ∈ [black, white, yellow, red] := by
    obtain rfl | rfl | ⟨-, rfl | rfl⟩ := palette <;> decide
  obtain rfl | rfl | rfl | rfl := scaling
  · obtain rfl | rfl | ⟨other, -⟩ := palette
    · exact two j small
    · exact absurd ⟨rfl, rfl⟩ ordinary
    · exact absurd rfl other
  · exact four color named j small
  · exact six color named j small
  · exact seven color named j small

/-- Clearing at once clears every pixel as clearing it by itself does. -/
def ClearsAlike (paint : Paint) (color : UInt16) : Prop :=
  ∀ x y, InPicture paint x y →
    pixelField (paintClear paint color) x y =
      pixelField (paintClearWindows paint 0 0 paint.width paint.height color) x y

/-- **The two ways to clear a picture agree**, but for the white two-colour picture. -/
theorem clear_agrees_iff {paint : Paint} (prepared : Prepared paint) (fills : Fills paint)
    {color : UInt16} (palette : IsPalette paint.scale color) :
    ClearsAlike paint color ↔
      ¬ (paint.scale = 2 ∧ color = white ∧ 0 < paint.widthMemory ∧ 0 < paint.heightMemory) := by
  have coherent := prepared.coherent
  have agree : ∀ x y, InPicture paint x y →
      (pixelField (paintClear paint color) x y =
          pixelField (paintClearWindows paint 0 0 paint.width paint.height color) x y ↔
        field (pixelsPerByte paint.scale).toNat (clearByte paint.scale color)
            ((memoryPoint paint x y).1.toNat % (pixelsPerByte paint.scale).toNat) =
          storedColor paint.scale color) := by
    intro x y inside
    rw [pixelField_paintClear coherent fills color inside,
      pixelField_paintClearWindows coherent fills palette.fits inside, Option.some.injEq]
  constructor
  · rintro alike ⟨scale, rfl, wide, high⟩
    -- the first pixel of the cache is cleared to black
    obtain ⟨x, y, inside, corner⟩ := exists_corner coherent wide high
    have first := (agree x y inside).mp (alike x y inside)
    rw [corner, scale] at first
    exact absurd first (by decide)
  · intro ordinary x y inside
    obtain ⟨-, inRow, inColumn⟩ := drawn_of_inside coherent inside
    have wide : 0 < paint.widthMemory := UInt16.lt_of_le_of_lt UInt16.zero_le inRow
    have high : 0 < paint.heightMemory := UInt16.lt_of_le_of_lt UInt16.zero_le inColumn
    have notWhite : ¬ (paint.scale = 2 ∧ color = white) :=
      fun both => ordinary ⟨both.1, both.2, wide, high⟩
    exact (agree x y inside).mpr (field_clearByte coherent.scaling palette notWhite
      (Nat.mod_lt _ (cuts_pixelsPerByte paint.scale).pos))

/-- Eleven red pixels of a four-colour picture on its side. -/
theorem clear_agrees_red :
    let paint := setUp (paintNewImage [1, 2, 3] 11 1 rotate270 white) [.setScale 4]
    ClearsAlike paint red ↔
      ¬ (paint.scale = 2 ∧ red = white ∧ 0 < paint.widthMemory ∧ 0 < paint.heightMemory) := by
  intro paint
  have prepared : Prepared paint := ⟨_, _, _, _, _, _, Or.inr (Or.inr (Or.inr rfl)), rfl⟩
  exact clear_agrees_iff prepared (by decide) (Or.inr (Or.inr ⟨by decide, Or.inr rfl⟩))

/-- Eight white pixels: one byte `0x01`, and one byte `0xFF`. -/
theorem white_clear_disagrees :
    ¬ ∀ paint : Paint, Prepared paint → Fills paint → ∀ color, IsPalette paint.scale color →
      ClearsAlike paint color := by
  intro alike
  have prepared : Prepared (paintNewImage [0] 8 1 rotate0 white) :=
    ⟨[0], 8, 1, rotate0, white, [], Or.inl rfl, rfl⟩
  exact absurd (alike _ prepared (by decide) white (Or.inr (Or.inl rfl)) 0 0 (by decide))
    (by decide)

end EinkLiteOS.Device
