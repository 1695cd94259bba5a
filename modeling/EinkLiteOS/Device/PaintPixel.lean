/-
# Device.PaintPixel -- where `Paint_SetPixel` stores

A scale packs the points of the cache into fields of its bytes.  `Paint_SetPixel` draws a
point of the picture by storing the field it occupies (`drawByte_sets`), so a pixel reads
back and every other pixel is what it was.

The range checks of `Paint_SetPixel` let the first coordinate behind the picture pass; what
a turned coordinate wraps to decides whether the second checks catch it (`drawn_iff`).
-/
import EinkLiteOS.Device.PaintSetup
import EinkLiteOS.Theory.BitFields

namespace EinkLiteOS.Device

open EinkLiteOS.Theory.BitFields

set_option autoImplicit false

/-! ## The store -/

/-- The index `drawPoint` stores at. -/
def drawAddress (paint : Paint) (x y : UInt16) : Option Nat :=
  if paint.scale = 2 then some (x.toNat / 8 + y.toNat * paint.widthByte.toNat)
  else if paint.scale = 4 then some (x.toNat / 4 + y.toNat * paint.widthByte.toNat)
  else if paint.scale = 6 ∨ paint.scale = 7 then
    some (x.toNat / 2 + y.toNat * paint.widthByte.toNat)
  else none

/-- What `drawPoint` makes of the byte it reads there. -/
def drawByte (scale x color : UInt16) (rdata : UInt8) : UInt8 :=
  if scale = 2 then
    let bit := 0x80 >>> (x % 8).toUInt32
    if color = black then maskedStore rdata bit 0 else maskedStore rdata 0 bit
  else if scale = 4 then
    let shift := (x % 4).toUInt32 * 2
    maskedStore rdata (0xC0 >>> shift) ((color % 4).toUInt32 <<< 6 >>> shift)
  else
    let shift := (x % 2).toUInt32 * 4
    maskedStore rdata (0xF0 >>> shift) (color.toUInt32 <<< 4 >>> shift)

/-- The one index of the cache that `Paint_SetPixel` reads and stores at, when it gets
past its checks. -/
def paintSetPixelAddress (paint : Paint) (xpoint ypoint : UInt16) : Option Nat :=
  if xpoint > paint.width ∨ ypoint > paint.height then none
  else
    match (rotatedPoint paint xpoint ypoint).bind fun p => mirroredPoint paint p.1 p.2 with
    | none => none
    | some (x, y) =>
        if x > paint.widthMemory ∨ y > paint.heightMemory then none else drawAddress paint x y

/-- The index of a point of the cache, for the scales there are. -/
def pointAddress (paint : Paint) (point : UInt16 × UInt16) : Nat :=
  point.1.toNat / (pixelsPerByte paint.scale).toNat + point.2.toNat * paint.widthByte.toNat

theorem drawAddress_eq {paint : Paint} (scaling : IsScale paint.scale) (x y : UInt16) :
    drawAddress paint x y = some (pointAddress paint (x, y)) := by
  simp only [drawAddress, pointAddress, pixelsPerByte]
  obtain scale | scale | scale | scale := scaling <;> rw [scale] <;> rfl

theorem drawPoint_eq {paint : Paint} (scaling : IsScale paint.scale) (x y color : UInt16) :
    drawPoint paint x y color = paintSelectImage paint
      (paint.image.modify (pointAddress paint (x, y)) (drawByte paint.scale x color)) := by
  unfold drawPoint pointAddress pixelsPerByte drawByte paintSelectImage
  obtain scale | scale | scale | scale := scaling <;> rw [scale] <;> rfl

/-- The buffer keeps its length, whatever is drawn. -/
@[simp] theorem length_paintSetPixel (paint : Paint) (xpoint ypoint color : UInt16) :
    (paintSetPixel paint xpoint ypoint color).image.length = paint.image.length := by
  simp only [paintSetPixel, drawPoint]
  grind

theorem length_foldl {α : Type} {draw : Paint → α → Paint}
    (keeps : ∀ paint a, (draw paint a).image.length = paint.image.length) (list : List α)
    (paint : Paint) : (list.foldl draw paint).image.length = paint.image.length := by
  induction list generalizing paint with
  | nil => rfl
  | cons a rest ih => rw [List.foldl_cons, ih, keeps]

/-- The points of the picture that `Paint_SetPixel` lets pass. -/
def Drawn (paint : Paint) (x y : UInt16) : Prop :=
  (x ≤ paint.width ∧ y ≤ paint.height) ∧
    (memoryPoint paint x y).1 ≤ paint.widthMemory ∧ (memoryPoint paint x y).2 ≤ paint.heightMemory

theorem paintSetPixel_drawn {paint : Paint} (coherent : Coherent paint) {x y : UInt16}
    (drawn : Drawn paint x y) (color : UInt16) :
    paintSetPixelAddress paint x y = some (pointAddress paint (memoryPoint paint x y)) ∧
      paintSetPixel paint x y color = paintSelectImage paint
        (paint.image.modify (pointAddress paint (memoryPoint paint x y))
          (drawByte paint.scale (memoryPoint paint x y).1 color)) := by
  obtain ⟨⟨onWidth, onHeight⟩, inWidth, inHeight⟩ := drawn
  have passed : ¬ (x > paint.width ∨ y > paint.height) := by
    simp [onWidth, onHeight]
  have passedMemory : ¬ ((memoryPoint paint x y).1 > paint.widthMemory ∨
      (memoryPoint paint x y).2 > paint.heightMemory) := by
    simp [inWidth, inHeight]
  constructor
  · rw [paintSetPixelAddress, if_neg passed, rotated_mirrored coherent]
    exact (if_neg passedMemory).trans (drawAddress_eq coherent.scaling _ _)
  · rw [paintSetPixel, if_neg passed, rotated_mirrored coherent]
    exact (if_neg passedMemory).trans (drawPoint_eq coherent.scaling _ _ _)

theorem paintSetPixel_not_drawn {paint : Paint} (coherent : Coherent paint) {x y : UInt16}
    (notDrawn : ¬ Drawn paint x y) (color : UInt16) :
    paintSetPixelAddress paint x y = none ∧ paintSetPixel paint x y color = paint := by
  simp only [paintSetPixelAddress, paintSetPixel]
  by_cases off : x > paint.width ∨ y > paint.height
  · exact ⟨if_pos off, if_pos off⟩
  · have offMemory : (memoryPoint paint x y).1 > paint.widthMemory ∨
        (memoryPoint paint x y).2 > paint.heightMemory := by
      simp only [Drawn] at notDrawn
      simp only [gt_iff_lt, not_or, UInt16.not_lt] at off
      simp only [off, and_self, true_and, not_and_or, UInt16.not_le] at notDrawn
      exact notDrawn
    rw [if_neg off, if_neg off, rotated_mirrored coherent]
    exact ⟨if_pos offMemory, if_pos offMemory⟩

/-- `Paint_SetPixel` changes nothing but bytes of the buffer. -/
theorem paintSetPixel_frame {paint : Paint} (coherent : Coherent paint) (x y color : UInt16) :
    ∃ image, image.length = paint.image.length ∧
      paintSetPixel paint x y color = paintSelectImage paint image := by
  by_cases drawn : Drawn paint x y
  · exact ⟨_, List.length_modify _ _ _, (paintSetPixel_drawn coherent drawn color).2⟩
  · exact ⟨paint.image, rfl, (paintSetPixel_not_drawn coherent drawn color).2⟩

theorem drawn_of_inside {paint : Paint} (coherent : Coherent paint) {x y : UInt16}
    (inside : InPicture paint x y) :
    Drawn paint x y ∧ (memoryPoint paint x y).1 < paint.widthMemory ∧
      (memoryPoint paint x y).2 < paint.heightMemory := by
  obtain ⟨inWidth, inHeight⟩ := (inPicture_iff coherent x y).mp inside
  have inRow : (memoryPoint paint x y).1 < paint.widthMemory := turnIf_lt inWidth
  have inColumn : (memoryPoint paint x y).2 < paint.heightMemory := turnIf_lt inHeight
  exact ⟨⟨⟨UInt16.le_of_lt inside.1, UInt16.le_of_lt inside.2⟩, UInt16.le_of_lt inRow,
    UInt16.le_of_lt inColumn⟩, inRow, inColumn⟩

/-! ## Fields of the cache -/

theorem cuts_pixelsPerByte (scale : UInt16) : Cuts (pixelsPerByte scale).toNat := by
  simp only [pixelsPerByte]
  by_cases two : scale = 2
  · rw [if_pos two]
    exact Or.inl rfl
  · rw [if_neg two]
    by_cases four : scale = 4
    · rw [if_pos four]
      exact Or.inr (Or.inl rfl)
    · rw [if_neg four]
      exact Or.inr (Or.inr rfl)

/-- A row has room for its pixels. -/
theorem le_rowBytes (width scale : UInt16) :
    width.toNat ≤
      (pixelsPerByte scale).toNat * (rowBytes width (pixelsPerByte scale)).toNat := by
  have cuts := cuts_pixelsPerByte scale
  rw [toNat_rowBytes cuts]
  obtain eight | four | two := cuts <;> simp only [*] <;> omega

/-- A place in a row-major array. -/
theorem rowMajor_lt {x y width height : Nat} (column : x < width) (row : y < height) :
    x + y * width < width * height := by
  calc x + y * width
      < width + y * width := Nat.add_lt_add_right column _
    _ = width * (y + 1) := by rw [Nat.mul_add, Nat.mul_one, Nat.add_comm, Nat.mul_comm]
    _ ≤ width * height := Nat.mul_le_mul_left _ row

/-- The field of a point of the cache, counted over the whole cache. -/
def pixelIndex (paint : Paint) (point : UInt16 × UInt16) : Nat :=
  point.1.toNat +
    (pixelsPerByte paint.scale).toNat * (point.2.toNat * paint.widthByte.toNat)

theorem pixelIndex_div (paint : Paint) (point : UInt16 × UInt16) :
    pixelIndex paint point / (pixelsPerByte paint.scale).toNat = pointAddress paint point :=
  Nat.add_mul_div_left _ _ (cuts_pixelsPerByte paint.scale).pos

theorem pixelIndex_mod (paint : Paint) (point : UInt16 × UInt16) :
    pixelIndex paint point % (pixelsPerByte paint.scale).toNat =
      point.1.toNat % (pixelsPerByte paint.scale).toNat :=
  Nat.add_mul_mod_self_left _ _ _

theorem pixelIndex_inj {paint : Paint} (coherent : Coherent paint) {point other : UInt16 × UInt16}
    (inRow : point.1 < paint.widthMemory) (otherInRow : other.1 < paint.widthMemory)
    (same : pixelIndex paint point = pixelIndex paint other) : point = other := by
  have room := le_rowBytes paint.widthMemory paint.scale
  rw [← coherent.widthByte] at room
  have below : ∀ q : UInt16 × UInt16, q.1 < paint.widthMemory →
      q.1.toNat < (pixelsPerByte paint.scale).toNat * paint.widthByte.toNat := by
    intro q inside
    exact Nat.lt_of_lt_of_le (UInt16.lt_iff_toNat_lt.mp inside) room
  have split : ∀ q : UInt16 × UInt16, q.1 < paint.widthMemory →
      pixelIndex paint q / ((pixelsPerByte paint.scale).toNat * paint.widthByte.toNat) =
          q.2.toNat ∧
        pixelIndex paint q % ((pixelsPerByte paint.scale).toNat * paint.widthByte.toNat) =
          q.1.toNat := by
    intro q inside
    rw [Nat.div_mod_unique (Nat.zero_lt_of_lt (below q inside))]
    refine ⟨?_, below q inside⟩
    simp only [pixelIndex]
    rw [Nat.mul_right_comm, Nat.mul_assoc]
  obtain ⟨row, column⟩ := split point inRow
  obtain ⟨row', column'⟩ := split other otherInRow
  rw [same] at row column
  exact Prod.ext (UInt16.toNat_inj.mp (column.symm.trans column'))
    (UInt16.toNat_inj.mp (row.symm.trans row'))

/-- The cache has a byte for every point inside it. -/
theorem pointAddress_lt {paint : Paint} (coherent : Coherent paint) {point : UInt16 × UInt16}
    (inRow : point.1 < paint.widthMemory) (inColumn : point.2 < paint.heightMemory) :
    pointAddress paint point < paint.widthByte.toNat * paint.heightByte.toNat := by
  have room := le_rowBytes paint.widthMemory paint.scale
  rw [← coherent.widthByte] at room
  rw [coherent.heightByte]
  have column : point.1.toNat / (pixelsPerByte paint.scale).toNat < paint.widthByte.toNat := by
    apply Nat.div_lt_of_lt_mul
    exact Nat.lt_of_lt_of_le (UInt16.lt_iff_toNat_lt.mp inRow) room
  exact rowMajor_lt column (UInt16.lt_iff_toNat_lt.mp inColumn)

/-- A colour that fits into the field of a pixel: two-colour and four-colour pictures
reduce whatever they are given. -/
def FitsScale (scale color : UInt16) : Prop := scale = 2 ∨ scale = 4 ∨ color < 16

/-- What the field of a pixel holds once it is drawn. -/
def storedColor (scale color : UInt16) : UInt8 :=
  if scale = 2 then if color = black then 0 else 1
  else if scale = 4 then (color % 4).toUInt8
  else color.toUInt8

theorem toUInt16_mod {x n : UInt16} {m : Nat} (value : n.toNat = m) :
    x % n = UInt16.ofNat (x.toNat % m) := by
  rw [← UInt16.toNat_inj, UInt16.toNat_mod, UInt16.toNat_ofNat', value]
  have bounded := x.toNat_lt
  have := Nat.mod_le x.toNat m
  omega

theorem field_maskedStore (n : Nat) (b : UInt8) (mask value : UInt32) (k : Nat) :
    field n (maskedStore b mask value) k =
      field n b k &&& field n (~~~mask.toUInt8) k ||| field n value.toUInt8 k := by
  rw [maskedStore_eq, field_or, field_and]

/-- A masked store of a field: the mask takes its bits out, and no other, and the value is
that field. -/
theorem sets_maskedStore {n j : Nat} {d : UInt8} {mask value : UInt32}
    (masks : ∀ k < n, field n (~~~mask.toUInt8) k =
      if k = j then 0 else UInt8.ofNat (2 ^ (8 / n) - 1))
    (values : ∀ k < n, field n value.toUInt8 k = if k = j then d else 0) :
    Sets n j d (fun rdata => maskedStore rdata mask value) := by
  intro b k small
  rw [field_maskedStore, masks k small, values k small]
  by_cases here : k = j
  · rw [if_pos here, if_pos here, if_pos here, UInt8.and_zero, UInt8.zero_or]
  · rw [if_neg here, if_neg here, if_neg here, field_and_full, UInt8.or_zero]

theorem drawByte_sets_two (x color : UInt16) :
    Sets 8 (x.toNat % 8) (storedColor 2 color) (drawByte 2 x color) := by
  have masks : ∀ j k : Fin 8,
      field 8 (~~~(0x80 >>> (UInt16.ofNat j.val).toUInt32 : UInt32).toUInt8) k.val =
        if k.val = j.val then 0 else 1 := by decide
  have values : ∀ j k : Fin 8,
      field 8 (0x80 >>> (UInt16.ofNat j.val).toUInt32 : UInt32).toUInt8 k.val =
        if k.val = j.val then 1 else 0 := by decide
  have nothing : ∀ k < 8, field 8 0 k = 0 ∧ field 8 (~~~0) k = 1 := by decide
  have place : x % 8 = UInt16.ofNat (x.toNat % 8) := toUInt16_mod rfl
  have small : x.toNat % 8 < 8 := Nat.mod_lt _ (by decide)
  unfold drawByte storedColor
  simp only [if_pos, place]
  by_cases isBlack : color = black
  · simp only [if_pos isBlack]
    apply sets_maskedStore
    · intro k below
      exact masks ⟨_, small⟩ ⟨k, below⟩
    · intro k below
      rw [ite_self]
      exact (nothing k below).1
  · simp only [if_neg isBlack]
    intro b k below
    rw [field_maskedStore]
    have value := values ⟨_, small⟩ ⟨k, below⟩
    have full : field 8 (~~~(0 : UInt32).toUInt8) k = UInt8.ofNat (2 ^ (8 / 8) - 1) :=
      (nothing k below).2
    rw [full, field_and_full, value]
    by_cases here : k = x.toNat % 8
    · -- a bit is set whatever it was
      rw [if_pos here, if_pos here]
      exact field_or_full 8 b k
    · rw [if_neg here, if_neg here, UInt8.or_zero]

theorem drawByte_sets_four (x color : UInt16) :
    Sets 4 (x.toNat % 4) (storedColor 4 color) (drawByte 4 x color) := by
  have masks : ∀ j k : Fin 4,
      field 4 (~~~(0xC0 >>> ((UInt16.ofNat j.val).toUInt32 * 2) : UInt32).toUInt8) k.val =
        if k.val = j.val then 0 else 3 := by decide
  have values : ∀ j c k : Fin 4,
      field 4 ((UInt16.ofNat c.val).toUInt32 <<< 6 >>>
        ((UInt16.ofNat j.val).toUInt32 * 2)).toUInt8 k.val =
          if k.val = j.val then (UInt16.ofNat c.val).toUInt8 else 0 := by decide
  have mod : ∀ z : UInt16, z % 4 = UInt16.ofNat (z.toNat % 4) := fun z => toUInt16_mod rfl
  have small : ∀ z : UInt16, z.toNat % 4 < 4 := fun z => Nat.mod_lt _ (by decide)
  show Sets 4 (x.toNat % 4) (color % 4).toUInt8 (fun rdata => maskedStore rdata
    (0xC0 >>> ((x % 4).toUInt32 * 2)) ((color % 4).toUInt32 <<< 6 >>> ((x % 4).toUInt32 * 2)))
  rw [mod x, mod color]
  apply sets_maskedStore
  · intro k below
    exact masks ⟨_, small x⟩ ⟨k, below⟩
  · intro k below
    exact values ⟨_, small x⟩ ⟨_, small color⟩ ⟨k, below⟩

/-- Scales 6 and 7, a nibble for a pixel. -/
theorem maskedStore_sets_nibble (x : UInt16) {color : UInt16} (fits : color < 16) :
    Sets 2 (x.toNat % 2) color.toUInt8 (fun rdata => maskedStore rdata
      (0xF0 >>> ((x % 2).toUInt32 * 4)) (color.toUInt32 <<< 4 >>> ((x % 2).toUInt32 * 4))) := by
  have masks : ∀ j k : Fin 2,
      field 2 (~~~(0xF0 >>> ((UInt16.ofNat j.val).toUInt32 * 4) : UInt32).toUInt8) k.val =
        if k.val = j.val then 0 else 15 := by decide
  have values : ∀ (j : Fin 2) (c : Fin 16) (k : Fin 2),
      field 2 ((UInt16.ofNat c.val).toUInt32 <<< 4 >>>
        ((UInt16.ofNat j.val).toUInt32 * 4)).toUInt8 k.val =
          if k.val = j.val then (UInt16.ofNat c.val).toUInt8 else 0 := by decide
  have mod : x % 2 = UInt16.ofNat (x.toNat % 2) := toUInt16_mod rfl
  have small : x.toNat % 2 < 2 := Nat.mod_lt _ (by decide)
  have sixteen : color.toNat < 16 := UInt16.lt_iff_toNat_lt.mp fits
  rw [mod]
  apply sets_maskedStore
  · intro k below
    exact masks ⟨_, small⟩ ⟨k, below⟩
  · intro k below
    have value := values ⟨_, small⟩ ⟨_, sixteen⟩ ⟨k, below⟩
    rwa [UInt16.ofNat_toNat] at value

/-- `drawByte` stores the colour in the field of its pixel. -/
theorem drawByte_sets {scale : UInt16} (scaling : IsScale scale) (x : UInt16) {color : UInt16}
    (fits : FitsScale scale color) :
    Sets (pixelsPerByte scale).toNat (x.toNat % (pixelsPerByte scale).toNat)
      (storedColor scale color) (drawByte scale x color) := by
  obtain rfl | rfl | rfl | rfl := scaling
  · exact drawByte_sets_two x color
  · exact drawByte_sets_four x color
  · exact maskedStore_sets_nibble x (by simpa [FitsScale] using fits)
  · exact maskedStore_sets_nibble x (by simpa [FitsScale] using fits)

/-! ## Pixels -/

/-- The bit field of a pixel. -/
def pixelField (paint : Paint) (x y : UInt16) : Option UInt8 :=
  fieldAt (pixelsPerByte paint.scale).toNat paint.image (pixelIndex paint (memoryPoint paint x y))

/-- The fields of another buffer. -/
theorem pixelField_selectImage (paint : Paint) (image : List UInt8) (x y : UInt16) :
    pixelField (paintSelectImage paint image) x y =
      fieldAt (pixelsPerByte paint.scale).toNat image
        (pixelIndex paint (memoryPoint paint x y)) := rfl

/-- Every pixel of a picture has a field in the buffer. -/
theorem exists_pixelField {paint : Paint} (coherent : Coherent paint) (fills : Fills paint)
    {x y : UInt16} (inside : InPicture paint x y) : ∃ v, pixelField paint x y = some v := by
  obtain ⟨-, inRow, inColumn⟩ := drawn_of_inside coherent inside
  have below := pointAddress_lt coherent inRow inColumn
  rw [← fills, ← pixelIndex_div] at below
  exact ⟨_, congrArg (Option.map _) (List.getElem?_eq_getElem below)⟩

/-- Drawing a pixel of the picture is one store into its field. -/
theorem paintSetPixel_inside {paint : Paint} (coherent : Coherent paint) {x y : UInt16}
    (inside : InPicture paint x y) (image : List UInt8) (color : UInt16) :
    paintSetPixel (paintSelectImage paint image) x y color = paintSelectImage paint
      (image.modify (pixelIndex paint (memoryPoint paint x y) / (pixelsPerByte paint.scale).toNat)
        (drawByte paint.scale (memoryPoint paint x y).1 color)) := by
  have inside' : InPicture (paintSelectImage paint image) x y := inside
  have coherent' := paintSelectImage_coherent coherent image
  obtain ⟨drawn, -⟩ := drawn_of_inside coherent' inside'
  rw [pixelIndex_div]
  exact (paintSetPixel_drawn coherent' drawn color).2

theorem drawByte_sets_index {paint : Paint} (coherent : Coherent paint) (point : UInt16 × UInt16)
    {color : UInt16} (fits : FitsScale paint.scale color) :
    Sets (pixelsPerByte paint.scale).toNat
      (pixelIndex paint point % (pixelsPerByte paint.scale).toNat)
      (storedColor paint.scale color) (drawByte paint.scale point.1 color) := by
  rw [pixelIndex_mod]
  exact drawByte_sets coherent.scaling point.1 fits

/-- Different pixels have different fields. -/
theorem pixelIndex_ne {paint : Paint} (coherent : Coherent paint) {x y x' y' : UInt16}
    (inside : InPicture paint x y) (inside' : InPicture paint x' y') (other : (x', y') ≠ (x, y)) :
    pixelIndex paint (memoryPoint paint x' y') ≠ pixelIndex paint (memoryPoint paint x y) := by
  intro same
  obtain ⟨-, inRow, -⟩ := drawn_of_inside coherent inside
  obtain ⟨-, inRow', -⟩ := drawn_of_inside coherent inside'
  obtain ⟨rfl, rfl⟩ := memoryPoint_inj (pixelIndex_inj coherent inRow' inRow same)
  exact other rfl

/-- The fields of the picture after one pixel is drawn. -/
theorem pixelField_paintSetPixel {paint : Paint} (coherent : Coherent paint) (fills : Fills paint)
    {x y x' y' color : UInt16} (inside : InPicture paint x y) (inside' : InPicture paint x' y')
    (fits : FitsScale paint.scale color) :
    pixelField (paintSetPixel paint x y color) x' y' =
      if (x', y') = (x, y) then some (storedColor paint.scale color)
      else pixelField paint x' y' := by
  show pixelField (paintSetPixel (paintSelectImage paint paint.image) x y color) x' y' = _
  rw [paintSetPixel_inside coherent inside, pixelField_selectImage,
    fieldAt_modify (cuts_pixelsPerByte paint.scale)
      (drawByte_sets_index coherent (memoryPoint paint x y) fits)]
  by_cases here : (x', y') = (x, y)
  · obtain ⟨rfl, rfl⟩ := Prod.mk.inj here
    obtain ⟨v, found⟩ := exists_pixelField coherent fills inside
    rw [if_pos rfl, if_pos rfl]
    exact congrArg (Option.map fun _ => storedColor paint.scale color) found
  · rw [if_neg here, if_neg (pixelIndex_ne coherent inside inside' here)]
    rfl

/-- **Drawn pixels read back and disturb no other**, and so drawing two of them commutes. -/
theorem drawn_pixel_reads_back {paint : Paint} (prepared : Prepared paint) (fills : Fills paint)
    {x y color : UInt16} (inside : InPicture paint x y) (fits : FitsScale paint.scale color) :
    pixelField (paintSetPixel paint x y color) x y = some (storedColor paint.scale color) ∧
      (∀ x' y', InPicture paint x' y' → (x', y') ≠ (x, y) →
        pixelField (paintSetPixel paint x y color) x' y' = pixelField paint x' y') ∧
      ∀ x' y' color', InPicture paint x' y' → (x', y') ≠ (x, y) →
        FitsScale paint.scale color' →
          paintSetPixel (paintSetPixel paint x y color) x' y' color' =
            paintSetPixel (paintSetPixel paint x' y' color') x y color := by
  have coherent := prepared.coherent
  refine ⟨?_, ?_, ?_⟩
  · rw [pixelField_paintSetPixel coherent fills inside inside fits, if_pos rfl]
  · intro x' y' inside' other
    rw [pixelField_paintSetPixel coherent fills inside inside' fits, if_neg other]
  · intro x' y' color' inside' other fits'
    have apart := (pixelIndex_ne coherent inside inside' other).symm
    have commute := modify_comm (cuts_pixelsPerByte paint.scale) paint.image
      (drawByte_sets_index coherent (memoryPoint paint x y) fits)
      (drawByte_sets_index coherent (memoryPoint paint x' y') fits') apart
    show paintSetPixel (paintSetPixel (paintSelectImage paint paint.image) x y color) x' y' color' =
      paintSetPixel (paintSetPixel (paintSelectImage paint paint.image) x' y' color') x y color
    rw [paintSetPixel_inside coherent inside, paintSetPixel_inside coherent inside',
      paintSetPixel_inside coherent inside', paintSetPixel_inside coherent inside, commute]

/-- A nibble picture on its side and mirrored: the second pixel of a row and the first. -/
theorem drawn_pixel_reads_back_nibble :
    let paint := setUp (paintNewImage [1, 2, 3, 4] 3 2 rotate90 white)
      [.setScale 6, .setMirroring 1]
    pixelField (paintSetPixel paint 1 2 9) 1 2 = some 9 ∧
      pixelField (paintSetPixel paint 1 2 9) 1 1 = pixelField paint 1 1 ∧
      paintSetPixel (paintSetPixel paint 1 2 9) 1 1 5 =
        paintSetPixel (paintSetPixel paint 1 1 5) 1 2 9 := by
  intro paint
  have prepared : Prepared paint := ⟨_, _, _, _, _, _, Or.inr (Or.inl rfl), rfl⟩
  have fits : ∀ color : UInt16, color < 16 → FitsScale paint.scale color :=
    fun _ small => Or.inr (Or.inr small)
  obtain ⟨stored, others, commute⟩ := drawn_pixel_reads_back prepared (by decide)
    (show InPicture paint 1 2 by decide) (fits 9 (by decide))
  exact ⟨stored, others 1 1 (by decide) (by decide),
    commute 1 1 5 (by decide) (by decide) (fits 5 (by decide))⟩

/-! ## The border -/

/-- A coordinate one behind the end, where counting from the other end does not take it away:
a turned one wraps to 65535. -/
def PastEnd (turns : Bool) (size z : UInt16) : Prop := z = size ∧ (turns = false ∨ size = 65535)

/-- The point lies on the line behind the last column or row of the cache, and not on one that
turning takes away. -/
def OnBorder (paint : Paint) (x y : UInt16) : Prop :=
  let u := alongRow paint.rotate x y
  let v := acrossRows paint.rotate x y
  let pastRow := PastEnd (turnsX paint.rotate paint.mirror) paint.widthMemory u
  let pastColumn := PastEnd (turnsY paint.rotate paint.mirror) paint.heightMemory v
  (u < paint.widthMemory ∨ pastRow) ∧ (v < paint.heightMemory ∨ pastColumn) ∧
    (pastRow ∨ pastColumn)

theorem turnIf_le_iff {turns : Bool} {size z : UInt16} :
    z ≤ size ∧ turnIf turns size z ≤ size ↔ z < size ∨ PastEnd turns size z := by
  have bounded := size.toNat_lt
  have top : (65535 : UInt16).toNat = 65535 := rfl
  have one : (1 : UInt16).toNat = 1 := rfl
  simp only [PastEnd, turnIf]
  cases turns with
  | false =>
      simp only [Bool.false_eq_true, if_false, true_or, and_true, and_self]
      exact UInt16.le_iff_lt_or_eq
  | true =>
      simp only [if_true, Bool.true_eq_false, false_or, UInt16.le_iff_toNat_le,
        UInt16.lt_iff_toNat_lt, ← UInt16.toNat_inj, UInt16.toNat_sub, top, one]
      omega

/-- Past the checks of `Paint_SetPixel` are the points of the picture and the border. -/
theorem drawn_iff {paint : Paint} (coherent : Coherent paint) (x y : UInt16) :
    Drawn paint x y ↔ InPicture paint x y ∨ OnBorder paint x y := by
  have checks : Drawn paint x y ↔
      (alongRow paint.rotate x y < paint.widthMemory ∨
        PastEnd (turnsX paint.rotate paint.mirror) paint.widthMemory
          (alongRow paint.rotate x y)) ∧
      (acrossRows paint.rotate x y < paint.heightMemory ∨
        PastEnd (turnsY paint.rotate paint.mirror) paint.heightMemory
          (acrossRows paint.rotate x y)) := by
    rw [Drawn, onPicture_iff coherent, ← turnIf_le_iff, ← turnIf_le_iff, and_and_and_comm]
    rfl
  rw [checks, inPicture_iff coherent]
  simp only [OnBorder]
  grind

/-- A point on the border is no point of the picture. -/
theorem not_inPicture_of_onBorder {paint : Paint} (coherent : Coherent paint) {x y : UInt16}
    (border : OnBorder paint x y) : ¬ InPicture paint x y := by
  rw [inPicture_iff coherent]
  intro inside
  obtain ⟨-, -, ⟨end', -⟩ | ⟨end', -⟩⟩ := border
  · exact UInt16.ne_of_lt inside.1 end'
  · exact UInt16.ne_of_lt inside.2 end'

/-- Of two colours at most one leaves a byte as it is. -/
theorem drawByte_changes {scale : UInt16} (scaling : IsScale scale) (x : UInt16) (b : UInt8) :
    ¬ (drawByte scale x black b = b ∧ drawByte scale x white b = b) := by
  rintro ⟨leftBlack, leftWhite⟩
  have fits : ∀ color, color = black ∨ color = white → FitsScale scale color := by
    rintro color (rfl | rfl) <;> exact Or.inr (Or.inr (by decide))
  have small : x.toNat % (pixelsPerByte scale).toNat < (pixelsPerByte scale).toNat :=
    Nat.mod_lt _ (cuts_pixelsPerByte scale).pos
  have storedBlack := drawByte_sets scaling x (fits black (Or.inl rfl)) b _ small
  have storedWhite := drawByte_sets scaling x (fits white (Or.inr rfl)) b _ small
  rw [if_pos rfl, leftBlack] at storedBlack
  rw [if_pos rfl, leftWhite, storedBlack] at storedWhite
  obtain rfl | rfl | rfl | rfl := scaling <;> revert storedWhite <;> decide

/-- What `Paint_SetPixel` should do at a point, whatever the colour: stay inside the buffer,
and leave it alone unless the point is one of the picture. -/
def StaysInside (paint : Paint) (x y : UInt16) : Prop :=
  (∀ index, paintSetPixelAddress paint x y = some index →
    index < paint.widthByte.toNat * paint.heightByte.toNat) ∧
  ∀ color, x ≥ paint.width ∨ y ≥ paint.height →
    (paintSetPixel paint x y color).image = paint.image

theorem not_inPicture_iff {paint : Paint} {x y : UInt16} :
    ¬ InPicture paint x y ↔ x ≥ paint.width ∨ y ≥ paint.height := by
  simp only [InPicture]
  rw [not_and_or, UInt16.not_lt, UInt16.not_lt]

/-- **`Paint_SetPixel` leaves the picture exactly at the border.** -/
theorem staysInside_iff {paint : Paint} (prepared : Prepared paint) (fills : Fills paint)
    (x y : UInt16) : StaysInside paint x y ↔ ¬ OnBorder paint x y := by
  have coherent := prepared.coherent
  constructor
  · rintro ⟨inBuffer, unchanged⟩ border
    have drawn := (drawn_iff coherent x y).mpr (Or.inr border)
    have off := not_inPicture_iff.mp (not_inPicture_of_onBorder coherent border)
    obtain ⟨address, -⟩ := paintSetPixel_drawn coherent drawn black
    -- the byte is in the buffer, and one of two colours changes it
    have here := inBuffer _ address
    rw [← fills] at here
    have same : ∀ color, drawByte paint.scale (memoryPoint paint x y).1 color
        paint.image[pointAddress paint (memoryPoint paint x y)] =
          paint.image[pointAddress paint (memoryPoint paint x y)] := by
      intro color
      have kept := unchanged color off
      rw [(paintSetPixel_drawn coherent drawn color).2] at kept
      have byte := congrArg (·[pointAddress paint (memoryPoint paint x y)]?) kept
      simpa [paintSelectImage, here] using byte
    exact drawByte_changes coherent.scaling _ _ ⟨same black, same white⟩
  · intro noBorder
    by_cases inside : InPicture paint x y
    · obtain ⟨drawn, inRow, inColumn⟩ := drawn_of_inside coherent inside
      constructor
      · intro index found
        rw [(paintSetPixel_drawn coherent drawn black).1] at found
        rw [← Option.some.inj found]
        exact pointAddress_lt coherent inRow inColumn
      · intro color off
        exact absurd inside (not_inPicture_iff.mpr off)
    · have notDrawn : ¬ Drawn paint x y := by
        rw [drawn_iff coherent]
        exact not_or.mpr ⟨inside, noBorder⟩
      constructor
      · intro index found
        rw [(paintSetPixel_not_drawn coherent notDrawn black).1] at found
        cases found
      · intro color _
        rw [(paintSetPixel_not_drawn coherent notDrawn color).2]

/-- Eight pixels in one byte, and the ninth. -/
theorem staysInside_iff_ninth :
    StaysInside (paintNewImage [0] 8 1 rotate0 white) 8 0 ↔
      ¬ OnBorder (paintNewImage [0] 8 1 rotate0 white) 8 0 :=
  staysInside_iff ⟨[0], 8, 1, rotate0, white, [], Or.inl rfl, rfl⟩ (by decide) 8 0

/-- The ninth pixel of a row of eight is drawn behind the buffer. -/
theorem ninth_pixel_leaves_picture :
    ¬ ∀ paint : Paint, Prepared paint → Fills paint → ∀ x y, StaysInside paint x y := by
  intro stays
  have prepared : Prepared (paintNewImage [0] 8 1 rotate0 white) :=
    ⟨[0], 8, 1, rotate0, white, [], Or.inl rfl, rfl⟩
  obtain ⟨inBuffer, -⟩ := stays _ prepared (by decide) 8 0
  exact absurd (inBuffer 1 (by decide)) (by decide)

end EinkLiteOS.Device
