/-
# Device.GuiPaint -- drawing pixels into an image cache

`Paint_NewImage`, `Paint_SetScale` and `Paint_SetPixel` of `Device/GUI_Paint.c`.
The global `Paint` is passed around, with the image cache it points to as a field.
Coordinates are `uint16_t` and wrap; no address leaves the range of the `int` it is
computed in, so an address is a natural number.  A store behind the end of the cache,
which in C writes somewhere else, is left out.
-/
import EinkLiteOS.Theory.Quads

namespace EinkLiteOS.Device

open EinkLiteOS.Theory.Quads

set_option autoImplicit false

def rotate0 : UInt16 := 0
def rotate90 : UInt16 := 90
def rotate180 : UInt16 := 180
def rotate270 : UInt16 := 270

def mirrorNone : UInt16 := 0x00
def mirrorHorizontal : UInt16 := 0x01
def mirrorVertical : UInt16 := 0x02
def mirrorOrigin : UInt16 := 0x03

def white : UInt16 := 0x01
def black : UInt16 := 0x00
def yellow : UInt16 := 0x02
def red : UInt16 := 0x03

/-- `PAINT` -/
structure Paint where
  image : List UInt8
  width : UInt16
  height : UInt16
  widthMemory : UInt16
  heightMemory : UInt16
  color : UInt16
  rotate : UInt16
  mirror : UInt16
  widthByte : UInt16
  heightByte : UInt16
  scale : UInt16
  deriving DecidableEq, Repr

/-- The bytes of a row of pixels, `perByte` of them in a byte. -/
def rowBytes (widthMemory perByte : UInt16) : UInt16 :=
  if widthMemory % perByte = 0 then widthMemory / perByte else widthMemory / perByte + 1

/-- `Paint_NewImage` -/
def paintNewImage (image : List UInt8) (width height rotate color : UInt16) : Paint :=
  let upright := rotate = rotate0 ∨ rotate = rotate180
  { image
    width := if upright then width else height
    height := if upright then height else width
    widthMemory := width
    heightMemory := height
    color
    rotate
    mirror := mirrorNone
    widthByte := rowBytes width 8
    heightByte := height
    scale := 2 }

/-- `Paint_SetScale` -/
def paintSetScale (paint : Paint) (scale : UInt8) : Paint :=
  if scale = 2 then
    { paint with scale := scale.toUInt16, widthByte := rowBytes paint.widthMemory 8 }
  else if scale = 4 then
    { paint with scale := scale.toUInt16, widthByte := rowBytes paint.widthMemory 4 }
  else if scale = 6 ∨ scale = 7 then
    { paint with scale := scale.toUInt16, widthByte := rowBytes paint.widthMemory 2 }
  else paint

/-- Where `Paint_SetPixel` draws a point, after rotation. -/
def rotatedPoint (paint : Paint) (xpoint ypoint : UInt16) : Option (UInt16 × UInt16) :=
  if paint.rotate = 0 then some (xpoint, ypoint)
  else if paint.rotate = 90 then some (paint.widthMemory - ypoint - 1, xpoint)
  else if paint.rotate = 180 then
    some (paint.widthMemory - xpoint - 1, paint.heightMemory - ypoint - 1)
  else if paint.rotate = 270 then some (ypoint, paint.heightMemory - xpoint - 1)
  else none

/-- The same after mirroring. -/
def mirroredPoint (paint : Paint) (x y : UInt16) : Option (UInt16 × UInt16) :=
  if paint.mirror = mirrorNone then some (x, y)
  else if paint.mirror = mirrorHorizontal then some (paint.widthMemory - x - 1, y)
  else if paint.mirror = mirrorVertical then some (x, paint.heightMemory - y - 1)
  else if paint.mirror = mirrorOrigin then
    some (paint.widthMemory - x - 1, paint.heightMemory - y - 1)
  else none

/-- The byte `rdata` with the bits of `mask` cleared and those of `value` set. -/
def maskedStore (rdata : UInt8) (mask value : UInt32) : UInt8 :=
  (rdata.toUInt32 &&& ~~~mask ||| value).toUInt8

/-- The store of `Paint_SetPixel`, at a point of the cache. -/
def drawPoint (paint : Paint) (x y color : UInt16) : Paint :=
  let store (addr : Nat) (byte : UInt8 → UInt8) : Paint :=
    { paint with image := paint.image.modify addr byte }
  if paint.scale = 2 then
    store (x.toNat / 8 + y.toNat * paint.widthByte.toNat) fun rdata =>
      let bit := 0x80 >>> (x % 8).toUInt32
      if color = black then maskedStore rdata bit 0 else maskedStore rdata 0 bit
  else if paint.scale = 4 then
    store (x.toNat / 4 + y.toNat * paint.widthByte.toNat) fun rdata =>
      let shift := (x % 4).toUInt32 * 2
      maskedStore rdata (0xC0 >>> shift) ((color % 4).toUInt32 <<< 6 >>> shift)
  else if paint.scale = 6 ∨ paint.scale = 7 then
    store (x.toNat / 2 + y.toNat * paint.widthByte.toNat) fun rdata =>
      let shift := (x % 2).toUInt32 * 4
      maskedStore rdata (0xF0 >>> shift) (color.toUInt32 <<< 4 >>> shift)
  else paint

/-- `Paint_SetPixel` -/
def paintSetPixel (paint : Paint) (xpoint ypoint color : UInt16) : Paint :=
  if xpoint > paint.width ∨ ypoint > paint.height then paint
  else
    match (rotatedPoint paint xpoint ypoint).bind fun p => mirroredPoint paint p.1 p.2 with
    | none => paint
    | some (x, y) =>
        if x > paint.widthMemory ∨ y > paint.heightMemory then paint
        else drawPoint paint x y color

/-! ## Four colours -/

/-- The cache of an upright four-colour image, cleared. -/
def fourColorPaint (width height : UInt16) : Paint :=
  let cache := List.replicate ((rowBytes width 4).toNat * height.toNat) 0
  paintSetScale (paintNewImage cache width height rotate0 white) 4

/-- What `fourColorPaint` sets up and no pixel changes. -/
structure IsFourColor (paint : Paint) (w h : UInt16) : Prop where
  width : paint.width = w
  height : paint.height = h
  widthMemory : paint.widthMemory = w
  heightMemory : paint.heightMemory = h
  rotate : paint.rotate = rotate0
  mirror : paint.mirror = mirrorNone
  widthByte : paint.widthByte = rowBytes w 4
  scale : paint.scale = 4

theorem fourColorPaint_isFourColor (width height : UInt16) :
    IsFourColor (fourColorPaint width height) width height :=
  ⟨rfl, rfl, rfl, rfl, rfl, rfl, rfl, rfl⟩

/-- A row is rounded up to whole bytes, of 8, 4 or 2 pixels. -/
theorem toNat_rowBytes {perByte : UInt16}
    (cuts : perByte.toNat = 8 ∨ perByte.toNat = 4 ∨ perByte.toNat = 2) (width : UInt16) :
    (rowBytes width perByte).toNat =
      (width.toNat + (perByte.toNat - 1)) / perByte.toNat := by
  have bounded := width.toNat_lt
  have whole : width % perByte = 0 ↔ width.toNat % perByte.toNat = 0 := by
    rw [← UInt16.toNat_inj, UInt16.toNat_mod]
    rfl
  have quotient : (width / perByte).toNat = width.toNat / perByte.toNat := UInt16.toNat_div _ _
  have one : (1 : UInt16).toNat = 1 := rfl
  simp only [rowBytes]
  by_cases even : width % perByte = 0
  · rw [if_pos even, quotient]
    have := whole.mp even
    obtain eight | four | two := cuts <;> simp only [*] at * <;> omega
  · rw [if_neg even, UInt16.toNat_add, quotient, one]
    have := mt whole.mpr even
    obtain eight | four | two := cuts <;> simp only [*] at * <;> omega

/-- Four pixels to a byte. -/
theorem toNat_rowBytes_four (width : UInt16) :
    (rowBytes width 4).toNat = (width.toNat + 3) / 4 :=
  toNat_rowBytes (Or.inr (Or.inl rfl)) width

/-- The store, in bytes. -/
theorem maskedStore_eq (rdata : UInt8) (mask value : UInt32) :
    maskedStore rdata mask value = rdata &&& ~~~mask.toUInt8 ||| value.toUInt8 := by
  simp only [maskedStore]
  rw [UInt32.toUInt8_or, UInt32.toUInt8_and, UInt32.toUInt8_not, UInt8.toUInt8_toUInt32]

/-- The store of a pixel, digit by digit. -/
theorem digit_maskedStore (b : UInt8) (x color : UInt16) {k : Nat} (small : k < 4) :
    digit (maskedStore b (0xC0 >>> ((x % 4).toUInt32 * 2))
        ((color % 4).toUInt32 <<< 6 >>> ((x % 4).toUInt32 * 2))) k =
      if k = x.toNat % 4 then (color % 4).toUInt8 else digit b k := by
  have mod : ∀ z : UInt16, z % 4 = UInt16.ofNat (z.toNat % 4) := by
    intro z
    rw [← UInt16.toNat_inj, UInt16.toNat_mod, UInt16.toNat_ofNat']
    show z.toNat % 4 = z.toNat % 4 % 2 ^ 16
    omega
  -- the mask takes out the digit of the pixel, and the value is that digit
  have masks : ∀ j k : Fin 4,
      digit (~~~(0xC0 >>> ((UInt16.ofNat j.val).toUInt32 * 2) : UInt32).toUInt8) k.val =
        if k = j then 0 else 3 := by decide
  have values : ∀ j c k : Fin 4,
      digit ((UInt16.ofNat c.val).toUInt32 <<< 6 >>>
        ((UInt16.ofNat j.val).toUInt32 * 2)).toUInt8 k.val =
          if k = j then (UInt16.ofNat c.val).toUInt8 else 0 := by decide
  have mask := masks ⟨x.toNat % 4, Nat.mod_lt _ (by decide)⟩ ⟨k, small⟩
  have value := values ⟨x.toNat % 4, Nat.mod_lt _ (by decide)⟩
    ⟨color.toNat % 4, Nat.mod_lt _ (by decide)⟩ ⟨k, small⟩
  simp only [Fin.mk.injEq, ← mod] at mask value
  rw [maskedStore_eq, digit_or, digit_and, mask, value]
  by_cases here : k = x.toNat % 4
  · rw [if_pos here, if_pos here, if_pos here, UInt8.and_zero, UInt8.zero_or]
  · rw [if_neg here, if_neg here, if_neg here, digit_and_three, UInt8.or_zero]

/-- The digits of an image cache, row by row: pixel `(x, y)` and the padding behind
each row. -/
def grid (w : UInt16) (cells : Nat → Nat → UInt8) (i : Nat) : UInt8 :=
  cells (i % (4 * (rowBytes w 4).toNat)) (i / (4 * (rowBytes w 4).toNat))

/-- `drawPoint` in a four-colour image. -/
theorem drawPoint_four {paint : Paint} (scale : paint.scale = 4) (x y color : UInt16) :
    drawPoint paint x y color =
      { paint with
        image := paint.image.modify (x.toNat / 4 + y.toNat * paint.widthByte.toNat)
          (fun rdata => maskedStore rdata (0xC0 >>> ((x % 4).toUInt32 * 2))
            ((color % 4).toUInt32 <<< 6 >>> ((x % 4).toUInt32 * 2))) } := by
  have notTwo : ¬ paint.scale = 2 := by
    rw [scale]
    decide
  rw [drawPoint, if_neg notTwo, if_pos scale]

/-- **`Paint_SetPixel` sets the digit of its pixel** and no other. -/
theorem paintSetPixel_spells {paint : Paint} {w h x y : UInt16} {n : Nat}
    {cells : Nat → Nat → UInt8} (four : IsFourColor paint w h) (inRow : x.toNat < w.toNat)
    (inColumn : y.toNat < h.toNat) (spells : Spells paint.image n (grid w cells))
    (color : UInt16) :
    IsFourColor (paintSetPixel paint x y color) w h ∧
      Spells (paintSetPixel paint x y color).image n (grid w fun x' y' =>
        if x' = x.toNat ∧ y' = y.toNat then (color % 4).toUInt8 else cells x' y') := by
  have inside : ¬ (x > w ∨ y > h) := by
    simp only [gt_iff_lt, UInt16.lt_iff_toNat_lt]
    omega
  have drawn : paintSetPixel paint x y color = drawPoint paint x y color := by
    have rotated : rotatedPoint paint x y = some (x, y) := if_pos four.rotate
    have mirrored : mirroredPoint paint x y = some (x, y) := if_pos four.mirror
    have onImage : ¬ (x > paint.width ∨ y > paint.height) := by
      rwa [four.width, four.height]
    have inMemory : ¬ (x > paint.widthMemory ∨ y > paint.heightMemory) := by
      rwa [four.widthMemory, four.heightMemory]
    rw [paintSetPixel, if_neg onImage, rotated, Option.bind_some, mirrored]
    exact if_neg inMemory
  rw [drawn, drawPoint_four four.scale]
  refine ⟨⟨four.width, four.height, four.widthMemory, four.heightMemory, four.rotate, four.mirror,
    four.widthByte, four.scale⟩, ?_⟩
  have width := toNat_rowBytes_four w
  have set := spells.modify (a := x.toNat / 4 + y.toNat * paint.widthByte.toNat)
    (Nat.mod_lt x.toNat (show 0 < 4 by decide))
    (fun b k small => digit_maskedStore b x color small)
  have position : ∀ i, i = 4 * (x.toNat / 4 + y.toNat * paint.widthByte.toNat) + x.toNat % 4 ↔
      i % (4 * (rowBytes w 4).toNat) = x.toNat ∧ i / (4 * (rowBytes w 4).toNat) = y.toNat := by
    intro i
    have inPadded : x.toNat < 4 * (rowBytes w 4).toNat := by omega
    have flat : 4 * (x.toNat / 4 + y.toNat * (rowBytes w 4).toNat) + x.toNat % 4 =
        x.toNat + 4 * (rowBytes w 4).toNat * y.toNat := by
      rw [Nat.mul_add, Nat.mul_assoc, Nat.mul_comm (rowBytes w 4).toNat]
      omega
    rw [and_comm, Nat.div_mod_unique (Nat.zero_lt_of_lt inPadded), four.widthByte, flat]
    exact ⟨fun same => ⟨same.symm, inPadded⟩, fun both => both.1.symm⟩
  simp only [position] at set
  exact set

/-- `Paint_SetPixel`, pixel after pixel. -/
def paintPixels (paint : Paint) (color : Nat → Nat → UInt16) (order : List (Nat × Nat)) : Paint :=
  order.foldl (fun paint p =>
    paintSetPixel paint (UInt16.ofNat p.1) (UInt16.ofNat p.2) (color p.1 p.2)) paint

/-- The cache after some pixels have been set, in any order. -/
theorem paintPixels_spells {paint : Paint} {w h : UInt16} {n : Nat} {cells : Nat → Nat → UInt8}
    (four : IsFourColor paint w h) (color : Nat → Nat → UInt16) (order : List (Nat × Nat))
    (inImage : ∀ p ∈ order, p.1 < w.toNat ∧ p.2 < h.toNat)
    (spells : Spells paint.image n (grid w cells)) :
    Spells (paintPixels paint color order).image n (grid w fun x y =>
      if (x, y) ∈ order then (color x y % 4).toUInt8 else cells x y) := by
  induction order generalizing paint cells with
  | nil => simpa [paintPixels] using spells
  | cons p rest ih =>
      obtain ⟨x, y⟩ := p
      obtain ⟨inRow, inColumn⟩ := inImage (x, y) List.mem_cons_self
      have xValue : (UInt16.ofNat x).toNat = x :=
        UInt16.toNat_ofNat_of_lt' (Nat.lt_trans inRow w.toNat_lt)
      have yValue : (UInt16.ofNat y).toNat = y :=
        UInt16.toNat_ofNat_of_lt' (Nat.lt_trans inColumn h.toNat_lt)
      obtain ⟨four', spells'⟩ := paintSetPixel_spells four (x := UInt16.ofNat x)
        (y := UInt16.ofNat y) (by rwa [xValue]) (by rwa [yValue]) spells (color x y)
      have later := ih four' (fun p member => inImage p (List.mem_cons_of_mem _ member)) spells'
      have same : ∀ x' y', (if (x', y') ∈ rest then (color x' y' % 4).toUInt8 else
          if x' = (UInt16.ofNat x).toNat ∧ y' = (UInt16.ofNat y).toNat then
            (color x y % 4).toUInt8 else cells x' y') =
          if (x', y') ∈ (x, y) :: rest then (color x' y' % 4).toUInt8 else cells x' y' := by
        intro x' y'
        rw [xValue, yValue]
        by_cases again : (x', y') ∈ rest
        · rw [if_pos again, if_pos (List.mem_cons_of_mem _ again)]
        · by_cases here : x' = x ∧ y' = y
          · obtain ⟨rfl, rfl⟩ := here
            rw [if_neg again, if_pos ⟨rfl, rfl⟩, if_pos List.mem_cons_self]
          · have other : (x', y') ∉ (x, y) :: rest := by
              rw [List.mem_cons, Prod.mk.injEq]
              exact not_or.mpr ⟨here, again⟩
            rw [if_neg again, if_neg here, if_neg other]
      simp only [same] at later
      exact later

end EinkLiteOS.Device
