/-
# Tools.Dither -- an image on the palette

`floyd_steinberg_dither`, `tricolor_dither` and `process_image` of the converter script
under `tools/`, from the resized image on.  The numbers are Python's and numpy's, and
nothing is assumed of them but that a byte stored in a `float32` array is a byte again
(`KeepsBytes`): the errors and the distances may be any numbers whatever.
-/
import EinkLiteOS.Theory.Raster
import EinkLiteOS.Tools.ImageConverter

namespace EinkLiteOS.Tools

open EinkLiteOS.Theory.Raster

set_option autoImplicit false

/-! ## Numbers -/

/-- The script's numbers and what it computes with them. -/
class Numeric (F : Type) extends NatCast F, Add F, Sub F, Mul F, Div F, Pow F Nat, BEq F where
  /-- The operator `<`. -/
  less : F → F → Bool
  /-- `np.sqrt` -/
  sqrt : F → F
  /-- What an element of a `float32` array is after an assignment. -/
  float32 : F → F
  /-- `astype(np.uint8)` -/
  uint8 : F → UInt8

open Numeric (less sqrt float32 uint8)

/-- A `float32` holds every byte exactly. -/
def KeepsBytes (F : Type) [Numeric F] : Prop :=
  ∀ b : UInt8, uint8 (float32 ((b.toNat : Nat) : F)) = b

/-- A pixel of a `float32` array of three channels. -/
structure Channels (F : Type) where
  r : F
  g : F
  b : F

section Dithering

variable {F : Type} [Numeric F]

def Channels.ofRgb (pixel : Rgb) : Channels F :=
  ⟨(pixel.r.toNat : Nat), (pixel.g.toNat : Nat), (pixel.b.toNat : Nat)⟩

/-- A pixel as it is stored. -/
def Channels.stored (pixel : Channels F) : Channels F :=
  ⟨float32 pixel.r, float32 pixel.g, float32 pixel.b⟩

def Channels.sub (pixel pixel' : Channels F) : Channels F :=
  ⟨pixel.r - pixel'.r, pixel.g - pixel'.g, pixel.b - pixel'.b⟩

/-- `pixel += error * 1 / 8`, channel by channel. -/
def Channels.addEighth (error pixel : Channels F) : Channels F :=
  Channels.stored
    ⟨pixel.r + error.r * (1 : Nat) / (8 : Nat), pixel.g + error.g * (1 : Nat) / (8 : Nat),
      pixel.b + error.b * (1 : Nat) / (8 : Nat)⟩

def Channels.toRgb (pixel : Channels F) : Rgb := ⟨uint8 pixel.r, uint8 pixel.g, uint8 pixel.b⟩

theorem Channels.toRgb_stored (keeps : KeepsBytes F) (pixel : Rgb) :
    (Channels.ofRgb pixel : Channels F).stored.toRgb = pixel := by
  simp only [Channels.ofRgb, Channels.stored, Channels.toRgb]
  rw [keeps, keeps, keeps]

/-- Python's `min`: the first of the least. -/
def minOf (first : F) (others : List F) : F :=
  others.foldl (fun least x => if less x least then x else least) first

/-! ## The script -/

inductive ColorName where
  | black
  | white
  | red
  | green
  | blue
  | yellow
  | magenta
  | cyan
  | darkYellow
  deriving DecidableEq, Repr

/-- `COLORS`: a colour, and the brightness its mask starts at. -/
def colors : ColorName → Rgb × Nat
  | .black => (⟨0, 0, 0⟩, 128)
  | .white => (⟨255, 255, 255⟩, 128)
  | .red => (⟨255, 0, 0⟩, 224)
  | .green => (⟨0, 255, 0⟩, 230)
  | .blue => (⟨0, 0, 255⟩, 230)
  | .yellow => (⟨255, 255, 0⟩, 230)
  | .magenta => (⟨255, 0, 255⟩, 230)
  | .cyan => (⟨0, 255, 255⟩, 230)
  | .darkYellow => (⟨56, 56, 0⟩, 200)

/-- Where `floyd_steinberg_dither` adds its error, and how many sixteenths of it. -/
def floydTargets (height width y x : Int) : List ((Int × Int) × Nat) :=
  (if x < width - 1 then [((y, x + 1), 7)] else []) ++
    (if y < height - 1 then
      (if x > 0 then [((y + 1, x - 1), 3)] else []) ++ [((y + 1, x), 5)] ++
        (if x < width - 1 then [((y + 1, x + 1), 1)] else [])
    else [])

/-- The two arrays of `floyd_steinberg_dither`. -/
structure GrayArrays (F : Type) (height width : Nat) where
  imgArray : Grid F height width
  error : Grid F height width

/-- A turn of its loops. -/
def floydVisit {height width : Nat} (threshold : F) (p : Cell height width)
    (s : GrayArrays F height width) : Option (GrayArrays F height width) :=
  let oldPixel := cell s.imgArray p + cell s.error p
  let newPixel : Nat := if less oldPixel threshold then 0 else 255
  let quantError := oldPixel - (newPixel : F)
  ((floydTargets height width p.1 p.2).foldlM
      (fun error t => updateAt error t.1 fun e => float32 (e + quantError * (t.2 : F) / (16 : Nat)))
      s.error).map fun error =>
    { imgArray := put s.imgArray p (float32 (newPixel : F)), error := error }

/-- `floyd_steinberg_dither(image, threshold)` -/
def floydSteinbergDither {height width : Nat} (threshold : F) (image : Grid UInt8 height width) :
    Option (Grid UInt8 height width) :=
  (scan (floydVisit threshold)
    { imgArray := build fun p => float32 (((cell image p).toNat : Nat) : F)
      error := build fun _ => float32 ((0 : Nat) : F) }).map fun s =>
    build fun p => uint8 (cell s.imgArray p)

/-- `rgb_to_tricolor_distance(pixel, three_color, four_color)` -/
def rgbToTricolorDistance (pixel : Channels F) (threeColor fourColor : ColorName) :
    F × F × F × F :=
  let three : Channels F := Channels.ofRgb (colors threeColor).1
  let four : Channels F := Channels.ofRgb (colors fourColor).1
  (sqrt (pixel.r ^ 2 + pixel.g ^ 2 + pixel.b ^ 2),
    sqrt (((255 : Nat) - pixel.r) ^ 2 + ((255 : Nat) - pixel.g) ^ 2 + ((255 : Nat) - pixel.b) ^ 2),
    sqrt ((three.r - pixel.r) ^ 2 + (three.g - pixel.g) ^ 2 + (three.b - pixel.b) ^ 2),
    sqrt ((four.r - pixel.r) ^ 2 + (four.g - pixel.g) ^ 2 + (four.b - pixel.b) ^ 2))

/-- The chosen colour of a pixel, and its mark. -/
def chosenColor (gamma yellowBias : F) (threeColor fourColor : ColorName) (pixel : Channels F) :
    Rgb × UInt8 :=
  let (dBlack, dWhite, dThree, dFour) := rgbToTricolorDistance pixel threeColor fourColor
  let dThreeColor := dThree * gamma * yellowBias
  let dFourColor := dFour * gamma * yellowBias
  let minDist := minOf dBlack [dWhite, dThreeColor, dFourColor]
  if minDist == dBlack then (⟨0, 0, 0⟩, 3)
  else if minDist == dWhite then (⟨255, 255, 255⟩, 0)
  else if minDist == dThreeColor then ((colors threeColor).1, 2)
  else ((colors fourColor).1, 1)

/-- Where `tricolor_dither` adds an eighth of its error. -/
def tricolorTargets (height width y x : Int) : List (Int × Int) :=
  (if x < width - 1 then [(y, x + 1)] else []) ++
    (if x < width - 2 then [(y, x + 2)] else []) ++
    (if y < height - 1 then
      (if x > 0 then [(y + 1, x - 1)] else []) ++ [(y + 1, x)] ++
        (if x < width - 1 then [(y + 1, x + 1)] else [])
    else []) ++
    (if y < height - 2 then [(y + 2, x)] else [])

/-- The two arrays of `tricolor_dither`. -/
structure ColorArrays (F : Type) (height width : Nat) where
  imgArray : Grid (Channels F) height width
  colorChoice : Grid UInt8 height width

/-- A turn of its loops. -/
def tricolorVisit {height width : Nat} (gamma yellowBias : F) (threeColor fourColor : ColorName)
    (p : Cell height width) (s : ColorArrays F height width) :
    Option (ColorArrays F height width) :=
  let chosen := chosenColor gamma yellowBias threeColor fourColor (cell s.imgArray p)
  let error := (cell s.imgArray p).sub (Channels.ofRgb chosen.1)
  ((tricolorTargets height width p.1 p.2).foldlM
      (fun imgArray t => updateAt imgArray t error.addEighth) s.imgArray).map fun imgArray =>
    { imgArray := put imgArray p (Channels.ofRgb chosen.1).stored
      colorChoice := put s.colorChoice p chosen.2 }

/-- `tricolor_dither(image, gamma, yellow_bias, three_color, four_color)` -/
def tricolorDither {height width : Nat} (gamma yellowBias : F) (threeColor fourColor : ColorName)
    (image : Grid Rgb height width) : Option (Grid Rgb height width × Grid UInt8 height width) :=
  (scan (tricolorVisit gamma yellowBias threeColor fourColor)
    { imgArray := build fun p => (Channels.ofRgb (cell image p) : Channels F).stored
      colorChoice := build fun _ => 0 }).map fun s =>
    (build fun p => (cell s.imgArray p).toRgb, s.colorChoice)

variable (F) in
/-- `process_image`, from the resized image on: the combined image, and the mask of the
third colour.  `luma` is the brightness of a pixel, as `convert("L")` computes it. -/
def processImage {height width : Nat} (luma : Rgb → UInt8) (threeColor fourColor : ColorName)
    (resizedImage : Grid Rgb height width) :
    Option (Grid Rgb height width × Grid Bool height width) := do
  let grayArray : Grid UInt8 height width := build fun p => luma (cell resizedImage p)
  let (ditherThreeColor, _) ←
    tricolorDither ((1 : Nat) : F) ((1 : Nat) : F) threeColor fourColor resizedImage
  let ditherGray ← floydSteinbergDither ((196 : Nat) : F) grayArray
  let ditherGray3C : Grid Rgb height width :=
    build fun p => ⟨cell ditherGray p, cell ditherGray p, cell ditherGray p⟩
  let bright (p : Cell height width) : Bool :=
    (cell grayArray p).toNat > (colors threeColor).2 &&
      (cell grayArray p).toNat > (colors fourColor).2
  let combinedImg : Grid Rgb height width :=
    build fun p => if bright p then cell ditherGray3C p else cell ditherThreeColor p
  return (combinedImg, build fun p => cell combinedImg p = (colors threeColor).1)

/-! ## Where the errors go -/

/-- Inside the image, and later than `p` in reading order. -/
theorem exists_later {height width : Nat} (p : Cell height width) {t : Int × Int}
    (inside : Inside height width t) (later : p.1 < t.1 ∨ p.1 = t.1 ∧ p.2 < t.2) :
    ∃ q : Cell height width, indices q = t ∧ Before p q := by
  obtain ⟨q, rfl⟩ := inside.exists_cell
  refine ⟨q, rfl, ?_⟩
  simp only [indices] at later
  simp only [Before]
  omega

theorem tricolorTargets_later {height width : Nat} (p : Cell height width) :
    ∀ t ∈ tricolorTargets height width p.1 p.2,
      ∃ q : Cell height width, indices q = t ∧ Before p q := by
  intro t member
  have row := p.1.isLt
  have column := p.2.isLt
  simp only [tricolorTargets] at member
  simp only [List.mem_append, List.mem_ite_nil_right, List.mem_singleton] at member
  -- every target is pushed under the guard that keeps it inside
  rcases member with ((⟨right, rfl⟩ | ⟨right, rfl⟩) | ⟨below, (⟨left, rfl⟩ | rfl) | ⟨right, rfl⟩⟩) |
    ⟨below, rfl⟩
  all_goals
    refine exists_later p ⟨⟨?_, ?_⟩, ?_, ?_⟩ ?_
    all_goals
      dsimp only
      omega

theorem floydTargets_inside {height width : Nat} (p : Cell height width) :
    ∀ t ∈ floydTargets height width p.1 p.2, Inside height width t.1 := by
  intro t member
  have row := p.1.isLt
  have column := p.2.isLt
  simp only [floydTargets] at member
  simp only [List.mem_append, List.mem_ite_nil_right, List.mem_singleton] at member
  rcases member with ⟨right, rfl⟩ | ⟨below, (⟨left, rfl⟩ | rfl) | ⟨right, rfl⟩⟩
  all_goals
    refine ⟨⟨?_, ?_⟩, ?_, ?_⟩
    all_goals
      dsimp only
      omega

/-! ## A turn of the loops -/

/-- The two fixed colours and the two of the palette. -/
def palette (threeColor fourColor : ColorName) : List Rgb :=
  [⟨0, 0, 0⟩, ⟨255, 255, 255⟩, (colors threeColor).1, (colors fourColor).1]

/-- A colour of the palette, as it is stored. -/
def Quantised (threeColor fourColor : ColorName) (pixel : Channels F) : Prop :=
  ∃ color ∈ palette threeColor fourColor, pixel = (Channels.ofRgb color).stored

/-- Black or white, as it is stored. -/
def BlackWhite (pixel : F) : Prop :=
  ∃ b : UInt8, (b = 0 ∨ b = 255) ∧ pixel = float32 ((b.toNat : Nat) : F)

theorem chosenColor_mem (gamma yellowBias : F) (threeColor fourColor : ColorName)
    (pixel : Channels F) :
    (chosenColor gamma yellowBias threeColor fourColor pixel).1 ∈ palette threeColor fourColor := by
  unfold chosenColor palette
  dsimp only
  split
  · exact List.mem_cons_self
  · split
    · exact List.mem_cons_of_mem _ List.mem_cons_self
    · split
      · exact List.mem_cons_of_mem _ (List.mem_cons_of_mem _ List.mem_cons_self)
      · simp

/-- What a turn of `tricolor_dither` does: its errors reach none of the earlier pixels, and
then its own pixel takes the chosen colour. -/
theorem tricolorVisit_eq {height width : Nat} (gamma yellowBias : F)
    (threeColor fourColor : ColorName) (p : Cell height width) (s : ColorArrays F height width) :
    ∃ imgArray, ∃ chosen : Rgb × UInt8, chosen.1 ∈ palette threeColor fourColor ∧
      tricolorVisit gamma yellowBias threeColor fourColor p s =
        some ⟨put imgArray p (Channels.ofRgb chosen.1).stored, put s.colorChoice p chosen.2⟩ ∧
      ∀ q, Before q p → cell imgArray q = cell s.imgArray q := by
  have later := tricolorTargets_later p
  have inside : ∀ t ∈ tricolorTargets height width p.1 p.2, Inside height width (id t) := by
    intro t member
    obtain ⟨q, place, -⟩ := later t member
    exact place ▸ inside_indices q
  have quantised := chosenColor_mem gamma yellowBias threeColor fourColor (cell s.imgArray p)
  simp only [tricolorVisit]
  generalize chosenColor gamma yellowBias threeColor fourColor (cell s.imgArray p) = chosen at *
  obtain ⟨imgArray, diffused, others⟩ := foldlM_updateAt inside
    (fun _ => ((cell s.imgArray p).sub (Channels.ofRgb chosen.1)).addEighth) s.imgArray
  refine ⟨imgArray, chosen, quantised, Option.map_eq_some_iff.mpr ⟨imgArray, diffused, rfl⟩, ?_⟩
  intro q earlier
  apply others
  intro t member same
  obtain ⟨r, place, after⟩ := later t member
  exact (earlier.trans after).ne (indices_injective (same.symm.trans place.symm))

/-- A turn of `tricolor_dither` quantises its own pixel and keeps the pixels before it. -/
theorem tricolorVisit_settles {height width : Nat} (gamma yellowBias : F)
    (threeColor fourColor : ColorName) (p : Cell height width) (s : ColorArrays F height width) :
    ∃ s', tricolorVisit gamma yellowBias threeColor fourColor p s = some s' ∧
      Quantised threeColor fourColor (cell s'.imgArray p) ∧
      ∀ q, Before q p → cell s'.imgArray q = cell s.imgArray q := by
  obtain ⟨imgArray, chosen, quantised, visited, kept⟩ :=
    tricolorVisit_eq gamma yellowBias threeColor fourColor p s
  refine ⟨_, visited, ⟨chosen.1, quantised, cell_put_self _ _ _⟩, ?_⟩
  intro q earlier
  exact (cell_put_of_ne _ earlier.ne _).trans (kept q earlier)

/-- A turn of `floyd_steinberg_dither` makes its own pixel black or white, and changes no
other: its errors go to an array of their own. -/
theorem floydVisit_settles {height width : Nat} (threshold : F) (p : Cell height width)
    (s : GrayArrays F height width) :
    ∃ s', floydVisit threshold p s = some s' ∧
      BlackWhite (cell s'.imgArray p) ∧
      ∀ q, Before q p → cell s'.imgArray q = cell s.imgArray q := by
  unfold floydVisit
  dsimp only
  generalize cell s.imgArray p + cell s.error p = oldPixel
  have gray : ∃ b : UInt8, (b = 0 ∨ b = 255) ∧
      (if less oldPixel threshold then 0 else 255) = b.toNat := by
    split
    · exact ⟨0, Or.inl rfl, rfl⟩
    · exact ⟨255, Or.inr rfl, rfl⟩
  obtain ⟨b, gray, newPixel⟩ := gray
  rw [newPixel]
  obtain ⟨error, diffused, -⟩ := foldlM_updateAt (floydTargets_inside p)
    (fun t e => float32 (e + (oldPixel - ((b.toNat : Nat) : F)) * (t.2 : F) / (16 : Nat))) s.error
  refine ⟨_, Option.map_eq_some_iff.mpr ⟨error, diffused, rfl⟩, ⟨b, gray, cell_put_self _ _ _⟩, ?_⟩
  intro q earlier
  exact cell_put_of_ne _ earlier.ne _

/-! ## Whole images -/

/-- **`tricolor_dither` ends on its palette**, whatever the numbers. -/
theorem tricolorDither_palette (keeps : KeepsBytes F) {height width : Nat} (gamma yellowBias : F)
    (threeColor fourColor : ColorName) (image : Grid Rgb height width) :
    ∃ result choice, tricolorDither gamma yellowBias threeColor fourColor image =
        some (result, choice) ∧
      ∀ p, cell result p ∈ palette threeColor fourColor := by
  obtain ⟨s, runs, all⟩ := scan_settles
    (fun (s : ColorArrays F height width) => cell s.imgArray) (Quantised threeColor fourColor)
    (tricolorVisit_settles gamma yellowBias threeColor fourColor)
    { imgArray := build fun p => (Channels.ofRgb (cell image p) : Channels F).stored
      colorChoice := build fun _ => 0 }
  refine ⟨_, _, Option.map_eq_some_iff.mpr ⟨s, runs, rfl⟩, ?_⟩
  intro p
  obtain ⟨color, member, stored⟩ := all p
  rw [cell_build, stored, Channels.toRgb_stored keeps]
  exact member

/-- **`floyd_steinberg_dither` ends on black and white.** -/
theorem floydSteinbergDither_blackWhite (keeps : KeepsBytes F) {height width : Nat} (threshold : F)
    (image : Grid UInt8 height width) :
    ∃ result, floydSteinbergDither threshold image = some result ∧
      ∀ p, cell result p = 0 ∨ cell result p = 255 := by
  obtain ⟨s, runs, all⟩ := scan_settles
    (fun (s : GrayArrays F height width) => cell s.imgArray) BlackWhite
    (floydVisit_settles threshold)
    { imgArray := build fun p => float32 (((cell image p).toNat : Nat) : F)
      error := build fun _ => float32 ((0 : Nat) : F) }
  refine ⟨_, Option.map_eq_some_iff.mpr ⟨s, runs, rfl⟩, ?_⟩
  intro p
  obtain ⟨b, gray, stored⟩ := all p
  rw [cell_build, stored, keeps]
  exact gray

variable (F) in
/-- Dithering with red and yellow ends on the four colours. -/
structure EndsOnPalette (luma : Rgb → UInt8) {height width : Nat}
    (image : Grid Rgb height width) : Prop where
  /-- Every target lies inside the image, and later than the pixel its error comes from. -/
  targets : ∀ p : Cell height width, ∀ t ∈ tricolorTargets height width p.1 p.2,
    ∃ q : Cell height width, indices q = t ∧ Before p q
  /-- A turn changes no pixel that has been quantised. -/
  settled : ∀ (gamma yellowBias : F) (done rest : List (Cell height width))
    (p : Cell height width), readingOrder height width = done ++ p :: rest →
    ∀ s : ColorArrays F height width,
      ∃ s', tricolorVisit gamma yellowBias .red .yellow p s = some s' ∧
        ∀ q ∈ done, cell s'.imgArray q = cell s.imgArray q
  dithered : ∀ gamma yellowBias : F, ∃ result choice,
    tricolorDither gamma yellowBias .red .yellow image = some (result, choice) ∧
      ∀ p, ∃ color : FourColor, cell result p = color.rgb
  /-- No pixel of the combined image takes the default code. -/
  combined : ∃ combinedImg mask,
    processImage F luma .red .yellow image = some (combinedImg, mask) ∧
      ∀ pixel ∈ (rows combinedImg).flatten, ∃ bits, colorMap.lookup pixel = some bits

theorem palette_red_yellow {pixel : Rgb} (member : pixel ∈ palette .red .yellow) :
    ∃ color : FourColor, pixel = color.rgb := by
  simp only [palette, colors, List.mem_cons, List.not_mem_nil, or_false] at member
  rcases member with rfl | rfl | rfl | rfl
  · exact ⟨.black, rfl⟩
  · exact ⟨.white, rfl⟩
  · exact ⟨.red, rfl⟩
  · exact ⟨.yellow, rfl⟩

theorem lookup_rgb (color : FourColor) : ∃ bits, colorMap.lookup color.rgb = some bits := by
  cases color <;> exact ⟨_, rfl⟩

/-- The gray image is one of black and white. -/
theorem gray_rgb {b : UInt8} (gray : b = 0 ∨ b = 255) :
    ∃ color : FourColor, (⟨b, b, b⟩ : Rgb) = color.rgb := by
  rcases gray with rfl | rfl
  · exact ⟨.black, rfl⟩
  · exact ⟨.white, rfl⟩

theorem processImage_palette (keeps : KeepsBytes F) (luma : Rgb → UInt8) {height width : Nat}
    (image : Grid Rgb height width) :
    ∃ combinedImg mask, processImage F luma .red .yellow image = some (combinedImg, mask) ∧
      ∀ p, ∃ color : FourColor, cell combinedImg p = color.rgb := by
  obtain ⟨three, choice, dithered, onPalette⟩ := tricolorDither_palette keeps
    ((1 : Nat) : F) ((1 : Nat) : F) .red .yellow image
  obtain ⟨gray, ditheredGray, blackWhite⟩ := floydSteinbergDither_blackWhite keeps
    ((196 : Nat) : F) (build fun p => luma (cell image p))
  unfold processImage
  dsimp only
  rw [dithered, ditheredGray]
  refine ⟨_, _, rfl, ?_⟩
  intro p
  rw [cell_build]
  split
  · rw [cell_build]
    exact gray_rgb (blackWhite p)
  · exact palette_red_yellow (onPalette p)

/-- **Dithering ends on the palette**, and the converter never takes its default code. -/
theorem dither_endsOnPalette (keeps : KeepsBytes F) (luma : Rgb → UInt8) {height width : Nat}
    (image : Grid Rgb height width) : EndsOnPalette F luma image := by
  refine ⟨tricolorTargets_later, ?_, ?_, ?_⟩
  · intro gamma yellowBias done rest p order s
    obtain ⟨s', visited, -, kept⟩ := tricolorVisit_settles gamma yellowBias .red .yellow p s
    refine ⟨s', visited, ?_⟩
    intro q earlier
    have sorted : (readingOrder height width).Pairwise Before := readingOrder_sorted
    rw [order] at sorted
    exact kept q ((List.pairwise_append.mp sorted).2.2 q earlier p List.mem_cons_self)
  · intro gamma yellowBias
    obtain ⟨result, choice, dithered, onPalette⟩ :=
      tricolorDither_palette keeps gamma yellowBias .red .yellow image
    exact ⟨result, choice, dithered, fun p => palette_red_yellow (onPalette p)⟩
  · obtain ⟨combinedImg, mask, combined, four⟩ := processImage_palette keeps luma image
    refine ⟨combinedImg, mask, combined, ?_⟩
    intro pixel member
    obtain ⟨p, rfl⟩ := exists_cell_of_mem_rows member
    obtain ⟨color, same⟩ := four p
    rw [same]
    exact lookup_rgb color

end Dithering

/-- Fractions, exact but for the root, which is rounded down. -/
instance : Numeric Rat where
  less x y := x < y
  sqrt x := (Nat.sqrt x.floor.toNat : Nat)
  float32 x := x
  uint8 x := UInt8.ofNat x.floor.toNat

theorem keepsBytes_rat : KeepsBytes Rat := by
  intro b
  show UInt8.ofNat ((((b.toNat : Nat) : Int) : Rat).floor.toNat) = b
  rw [Rat.floor_intCast, Int.toNat_natCast, UInt8.ofNat_toNat]

/-- A red and a gray pixel above a yellow and a black one. -/
theorem dither_endsOnPalette_square :
    KeepsBytes Rat ∧ EndsOnPalette Rat
      (fun p => UInt8.ofNat ((299 * p.r.toNat + 587 * p.g.toNat + 114 * p.b.toNat) / 1000))
      #v[#v[⟨255, 0, 0⟩, ⟨240, 240, 240⟩], #v[⟨255, 255, 0⟩, ⟨0, 0, 0⟩]] :=
  ⟨keepsBytes_rat, dither_endsOnPalette keepsBytes_rat _ _⟩

end EinkLiteOS.Tools
