/-
# Device.PaintSetup -- a prepared picture

`Paint_NewImage` and the calls that may follow it before anything is drawn.  What they leave
in `Paint` is `Coherent`; in a coherent picture rotation and mirroring take the points of the
picture to points of the cache, one to one (`memoryPoint_inj`), as each coordinate is taken
over or counted from the other end.
-/
import EinkLiteOS.Device.GuiPaint

namespace EinkLiteOS.Device

set_option autoImplicit false

/-- One of the four values of `MIRROR_IMAGE`. -/
def IsMirroring (mirror : UInt16) : Prop :=
  mirror = mirrorNone ∨ mirror = mirrorHorizontal ∨ mirror = mirrorVertical ∨
    mirror = mirrorOrigin

instance (mirror : UInt16) : Decidable (IsMirroring mirror) :=
  inferInstanceAs (Decidable (_ ∨ _ ∨ _ ∨ _))

/-- `Paint_SetMirroring` -/
def paintSetMirroring (paint : Paint) (mirror : UInt8) : Paint :=
  if IsMirroring mirror.toUInt16 then { paint with mirror := mirror.toUInt16 } else paint

/-- `Paint_SelectImage` -/
def paintSelectImage (paint : Paint) (image : List UInt8) : Paint := { paint with image }

/-- A call that prepares the picture before anything is drawn. -/
inductive SetupCall where
  | setScale (scale : UInt8)
  | setMirroring (mirror : UInt8)
  | selectImage (image : List UInt8)
  deriving DecidableEq, Repr

def SetupCall.perform (paint : Paint) : SetupCall → Paint
  | .setScale scale => paintSetScale paint scale
  | .setMirroring mirror => paintSetMirroring paint mirror
  | .selectImage image => paintSelectImage paint image

def setUp (paint : Paint) (calls : List SetupCall) : Paint := calls.foldl SetupCall.perform paint

/-! ## What the calls keep -/

/-- One of the four rotations. -/
def IsRotation (rotate : UInt16) : Prop :=
  rotate = rotate0 ∨ rotate = rotate90 ∨ rotate = rotate180 ∨ rotate = rotate270

/-- One of the scales `Paint_SetScale` knows. -/
def IsScale (scale : UInt16) : Prop := scale = 2 ∨ scale = 4 ∨ scale = 6 ∨ scale = 7

/-- The picture lies along the rows of the cache. -/
def upright (rotate : UInt16) : Bool := rotate = rotate0 ∨ rotate = rotate180

/-- The pixels in a byte of the cache. -/
def pixelsPerByte (scale : UInt16) : UInt16 := if scale = 2 then 8 else if scale = 4 then 4 else 2

/-- What `Paint_NewImage` and the calls after it leave in `Paint`. -/
structure Coherent (paint : Paint) : Prop where
  rotation : IsRotation paint.rotate
  mirroring : IsMirroring paint.mirror
  scaling : IsScale paint.scale
  width : paint.width = if upright paint.rotate then paint.widthMemory else paint.heightMemory
  height : paint.height = if upright paint.rotate then paint.heightMemory else paint.widthMemory
  widthByte : paint.widthByte = rowBytes paint.widthMemory (pixelsPerByte paint.scale)
  heightByte : paint.heightByte = paint.heightMemory

theorem paintNewImage_coherent {rotate : UInt16} (rotation : IsRotation rotate)
    (image : List UInt8) (width height color : UInt16) :
    Coherent (paintNewImage image width height rotate color) := by
  refine ⟨rotation, Or.inl rfl, Or.inl rfl, ?_, ?_, rfl, rfl⟩
  all_goals
    by_cases flat : rotate = rotate0 ∨ rotate = rotate180
    all_goals simp [paintNewImage, upright, flat]

theorem paintSetScale_coherent {paint : Paint} (coherent : Coherent paint) (scale : UInt8) :
    Coherent (paintSetScale paint scale) := by
  obtain ⟨rotation, mirroring, scaling, width, height, widthByte, heightByte⟩ := coherent
  simp only [paintSetScale]
  by_cases two : scale = 2
  · subst two
    exact ⟨rotation, mirroring, Or.inl rfl, width, height, rfl, heightByte⟩
  · rw [if_neg two]
    by_cases four : scale = 4
    · subst four
      exact ⟨rotation, mirroring, Or.inr (Or.inl rfl), width, height, rfl, heightByte⟩
    · rw [if_neg four]
      by_cases seven : scale = 6 ∨ scale = 7
      · rw [if_pos seven]
        obtain rfl | rfl := seven
        · exact ⟨rotation, mirroring, Or.inr (Or.inr (Or.inl rfl)), width, height, rfl, heightByte⟩
        · exact ⟨rotation, mirroring, Or.inr (Or.inr (Or.inr rfl)), width, height, rfl, heightByte⟩
      · rw [if_neg seven]
        exact ⟨rotation, mirroring, scaling, width, height, widthByte, heightByte⟩

theorem paintSetMirroring_coherent {paint : Paint} (coherent : Coherent paint) (mirror : UInt8) :
    Coherent (paintSetMirroring paint mirror) := by
  obtain ⟨rotation, mirroring, scaling, width, height, widthByte, heightByte⟩ := coherent
  simp only [paintSetMirroring]
  by_cases known : IsMirroring mirror.toUInt16
  · rw [if_pos known]
    exact ⟨rotation, known, scaling, width, height, widthByte, heightByte⟩
  · rw [if_neg known]
    exact ⟨rotation, mirroring, scaling, width, height, widthByte, heightByte⟩

theorem paintSelectImage_coherent {paint : Paint} (coherent : Coherent paint)
    (image : List UInt8) : Coherent (paintSelectImage paint image) :=
  { coherent with }

theorem setUp_coherent {paint : Paint} (coherent : Coherent paint) (calls : List SetupCall) :
    Coherent (setUp paint calls) := by
  induction calls generalizing paint with
  | nil => exact coherent
  | cons call rest ih =>
      apply ih
      cases call with
      | setScale scale => exact paintSetScale_coherent coherent scale
      | setMirroring mirror => exact paintSetMirroring_coherent coherent mirror
      | selectImage image => exact paintSelectImage_coherent coherent image

/-- A state that `Paint_NewImage`, with one of the rotations, and the calls after it produce. -/
def Prepared (paint : Paint) : Prop :=
  ∃ (image : List UInt8) (width height rotate background : UInt16) (calls : List SetupCall),
    IsRotation rotate ∧
      paint = setUp (paintNewImage image width height rotate background) calls

theorem Prepared.coherent {paint : Paint} (prepared : Prepared paint) : Coherent paint := by
  obtain ⟨image, width, height, rotate, background, calls, rotation, rfl⟩ := prepared
  exact setUp_coherent (paintNewImage_coherent rotation image width height background) calls

/-- The buffer of the picture has a byte for each of its fields, and no more. -/
def Fills (paint : Paint) : Prop :=
  paint.image.length = paint.widthByte.toNat * paint.heightByte.toNat

instance (paint : Paint) : Decidable (Fills paint) := inferInstanceAs (Decidable (_ = _))

/-- A point of the picture. -/
def InPicture (paint : Paint) (x y : UInt16) : Prop := x < paint.width ∧ y < paint.height

instance (paint : Paint) (x y : UInt16) : Decidable (InPicture paint x y) :=
  inferInstanceAs (Decidable (_ ∧ _))

/-! ## From the picture to the cache -/

/-- A coordinate counted from the other end. -/
def turnIf (turns : Bool) (size z : UInt16) : UInt16 := if turns then size - z - 1 else z

theorem turned_turned (size z : UInt16) : size - (size - z - 1) - 1 = z := by
  apply UInt16.toNat_inj.mp
  have one : (1 : UInt16).toNat = 1 := rfl
  have sizeBound := size.toNat_lt
  have bound := z.toNat_lt
  simp only [UInt16.toNat_sub]
  omega

theorem turnIf_turnIf (first second : Bool) (size z : UInt16) :
    turnIf second size (turnIf first size z) = turnIf (first ^^ second) size z := by
  cases first with
  | false => rw [Bool.false_xor]; rfl
  | true =>
      cases second with
      | false => rfl
      | true => exact turned_turned size z

theorem turnIf_inj {turns : Bool} {size z z' : UInt16}
    (same : turnIf turns size z = turnIf turns size z') : z = z' := by
  have back := congrArg (turnIf turns size) same
  rw [turnIf_turnIf, turnIf_turnIf, Bool.xor_self] at back
  exact back

theorem turnIf_lt {turns : Bool} {size z : UInt16} (inside : z < size) :
    turnIf turns size z < size := by
  cases turns with
  | false => exact inside
  | true =>
      show size - z - 1 < size
      rw [UInt16.lt_iff_toNat_lt] at inside ⊢
      rw [UInt16.toNat_sub, UInt16.toNat_sub]
      have one : (1 : UInt16).toNat = 1 := rfl
      have bounded := size.toNat_lt
      omega

/-- The first coordinate is counted from the other end. -/
def turnsX (rotate mirror : UInt16) : Bool :=
  (rotate = rotate90 || rotate = rotate180) ^^ (mirror = mirrorHorizontal || mirror = mirrorOrigin)

/-- The second coordinate is. -/
def turnsY (rotate mirror : UInt16) : Bool :=
  (rotate = rotate180 || rotate = rotate270) ^^ (mirror = mirrorVertical || mirror = mirrorOrigin)

/-- The coordinate of a point that runs along the rows of the cache. -/
def alongRow (rotate x y : UInt16) : UInt16 := if upright rotate then x else y

/-- The coordinate of a point that runs across them. -/
def acrossRows (rotate x y : UInt16) : UInt16 := if upright rotate then y else x

/-- Where a point of the picture lies in the cache. -/
def memoryPoint (paint : Paint) (x y : UInt16) : UInt16 × UInt16 :=
  (turnIf (turnsX paint.rotate paint.mirror) paint.widthMemory (alongRow paint.rotate x y),
    turnIf (turnsY paint.rotate paint.mirror) paint.heightMemory (acrossRows paint.rotate x y))

theorem memoryPoint_inj {paint : Paint} {x y x' y' : UInt16}
    (same : memoryPoint paint x y = memoryPoint paint x' y') : x = x' ∧ y = y' := by
  simp only [memoryPoint] at same
  have along := turnIf_inj (Prod.mk.inj same).1
  have across := turnIf_inj (Prod.mk.inj same).2
  simp only [alongRow, acrossRows] at *
  cases flat : upright paint.rotate with
  | false =>
      simp only [flat] at along across
      exact ⟨across, along⟩
  | true =>
      simp only [flat] at along across
      exact ⟨along, across⟩

/-- The two steps of `Paint_SetPixel`, rotation and mirroring, lead there. -/
theorem rotated_mirrored {paint : Paint} (coherent : Coherent paint) (x y : UInt16) :
    ((rotatedPoint paint x y).bind fun p => mirroredPoint paint p.1 p.2) =
      some (memoryPoint paint x y) := by
  have rotated : rotatedPoint paint x y =
      some (turnIf (paint.rotate = rotate90 || paint.rotate = rotate180) paint.widthMemory
          (alongRow paint.rotate x y),
        turnIf (paint.rotate = rotate180 || paint.rotate = rotate270) paint.heightMemory
          (acrossRows paint.rotate x y)) := by
    simp only [rotatedPoint, alongRow, acrossRows]
    obtain turn | turn | turn | turn := coherent.rotation <;> rw [turn] <;> rfl
  have mirrored : ∀ u v, mirroredPoint paint u v =
      some (turnIf (paint.mirror = mirrorHorizontal || paint.mirror = mirrorOrigin)
          paint.widthMemory u,
        turnIf (paint.mirror = mirrorVertical || paint.mirror = mirrorOrigin)
          paint.heightMemory v) := by
    intro u v
    simp only [mirroredPoint]
    obtain turn | turn | turn | turn := coherent.mirroring <;> rw [turn] <;> rfl
  rw [rotated, Option.bind_some, mirrored, turnIf_turnIf, turnIf_turnIf]
  rfl

theorem inPicture_iff {paint : Paint} (coherent : Coherent paint) (x y : UInt16) :
    InPicture paint x y ↔
      alongRow paint.rotate x y < paint.widthMemory ∧
        acrossRows paint.rotate x y < paint.heightMemory := by
  simp only [InPicture, alongRow, acrossRows]
  rw [coherent.width, coherent.height]
  cases upright paint.rotate with
  | false => exact and_comm
  | true => exact Iff.rfl

theorem onPicture_iff {paint : Paint} (coherent : Coherent paint) (x y : UInt16) :
    x ≤ paint.width ∧ y ≤ paint.height ↔
      alongRow paint.rotate x y ≤ paint.widthMemory ∧
        acrossRows paint.rotate x y ≤ paint.heightMemory := by
  rw [coherent.width, coherent.height]
  simp only [alongRow, acrossRows]
  cases upright paint.rotate with
  | false => exact and_comm
  | true => exact Iff.rfl

end EinkLiteOS.Device
