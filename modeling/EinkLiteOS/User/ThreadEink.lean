/-
# User.ThreadEink -- two buttons, two pictures

`thread_Eink_Start` draws its first picture into a block of the heap, frees the block and
then scans two buttons for ever: the first shows the picture that was drawn, the second a
static one.  A turn of the loop is a sample of each button and what the memory behind a
freed block holds during the turn; the turns of a run are any list of them.

The second button shows its picture.  The first sends the panel what it finds where the
picture was (`shows_pictures_iff`).
-/
import EinkLiteOS.Device.Epd
import EinkLiteOS.Device.PaintLine
import EinkLiteOS.Device.PaintText
import EinkLiteOS.Theory.Heap
import EinkLiteOS.Theory.Transducer
import EinkLiteOS.User.ButtonScan

namespace EinkLiteOS.User

open EinkLiteOS.Device EinkLiteOS.Theory EinkLiteOS.Theory.Utf8

set_option autoImplicit false

/-- The text on the first picture. -/
def firstText : List Char := ['苏', '州', '析', '羽', '信', '息']

/-- `Display_First`, with the font it uses: `none` if its text were to leave the string. -/
def displayFirst (font24Cn : CFont) (image : List UInt8) : Option Paint := do
  let paint := paintNewImage image (UInt16.ofNat epdWidth) (UInt16.ofNat epdHeight) rotate270 white
  let paint := paintSelectImage (paintSetScale paint 4) paint.image
  let paint := paintClear paint white
  let paint := paintDrawRectangle paint ⟨2, 2, 248, 120⟩ black .pixel2x2 .empty
  let paint := paintDrawRectangle paint ⟨5, 5, 245, 117⟩ yellow .pixel1x1 .empty
  let paint := paintDrawRectangle paint ⟨8, 8, 35, 114⟩ red .pixel1x1 .full
  let paint ← paintDrawStringCn paint 45 (cText firstText)
    { font := font24Cn, ystart := 15, foreground := black, background := white }
  let paint := paintDrawLine paint ⟨45, 58, 240, 58⟩ black .pixel1x1 .solid
  return paintDrawLine paint ⟨45, 105, 240, 105⟩ yellow .pixel2x2 .solid

/-- The characters of the first picture have three bytes. -/
theorem firstText_characters {c : Char} (member : c ∈ firstText) :
    c.val ≠ 0 ∧ stride c = c.utf8Size := by
  have all : (firstText.all fun c => c.val != 0 && stride c == c.utf8Size) = true := by decide
  have own := List.all_eq_true.mp all c member
  rw [Bool.and_eq_true, bne_iff_ne, beq_iff_eq] at own
  exact own

theorem exists_displayFirst (font24Cn : CFont) (image : List UInt8) :
    ∃ paint, displayFirst font24Cn image = some paint ∧ paint.image.length = image.length := by
  unfold displayFirst
  dsimp only
  generalize before : paintDrawRectangle _ ⟨8, 8, 35, 114⟩ red .pixel1x1 .full = prepared
  have length : prepared.image.length = image.length := by
    rw [← before]
    simp [paintSelectImage, paintNewImage, paintSetScale]
  obtain ⟨drawn, text, length'⟩ := exists_paintDrawStringCn prepared 45
    { font := font24Cn, ystart := 15, foreground := black, background := white }
    (fun c member => (firstText_characters member).1)
    fun c member => (firstText_characters member).2
  rw [text, Option.bind_eq_bind, Option.bind_some]
  refine ⟨_, rfl, ?_⟩
  rw [length_paintDrawLine, length_paintDrawLine, length', length]

/-- The contents of a picture buffer. -/
abbrev Picture : Type := Vector UInt8 epdBufferSize

/-- What `Display_First` leaves in a buffer. -/
def firstPicture (font24Cn : CFont) (image : Picture) : Picture :=
  match drawn : displayFirst font24Cn image.toList with
  | none => image
  | some paint => ⟨paint.image.toArray, by
      obtain ⟨paint', drawn', length⟩ := exists_displayFirst font24Cn image.toList
      rw [drawn'] at drawn
      cases drawn
      rw [List.size_toArray, length, Vector.length_toList]⟩

/-! ## The thread -/

/-- The two buttons. -/
inductive PictureButton where
  | button1 | button2
  deriving DecidableEq, Repr

/-- One turn of the endless loop. -/
structure EinkTurn where
  sample1 : BitAction
  sample2 : BitAction
  garbage : Picture

/-- What the loop keeps. -/
structure EinkState where
  heap : Heap Picture
  imageTest : Nat
  button1 : Button
  button2 : Button

/-- One picture shown: for which button, with which bytes, and whether these were read from a
block that was live, or static. -/
structure Shown where
  button : PictureButton
  picData : Picture
  live : Bool

/-- `EPD_Init_Fast`, `EPD_DisplayImage` and `EPD_Sleep`. -/
def Shown.ops (shown : Shown) : List PanelOp :=
  epdInitFast ++ epdDisplayImage shown.picData ++ epdSleep

/-- A button as it is set up. -/
def buttonInit : Button := { state := .idle, debounceCounter := 0 }

/-- `thread_Eink_Start` up to its loop, in a heap and with what the new block happens to hold. -/
def threadEinkSetup (font24Cn : CFont) (heap : Heap Picture) (held : Picture) : EinkState :=
  let (imageTest, heap) := heap.malloc held
  let heap := heap.store imageTest (firstPicture font24Cn)
  let heap := heap.free imageTest
  { heap, imageTest, button1 := buttonInit, button2 := buttonInit }

/-- One turn of the loop: the state after it and the pictures it shows. -/
def einkTurn (imageAsuka : Picture) (s : EinkState) (turn : EinkTurn) : EinkState × List Shown :=
  let show' (button : PictureButton) (source : Pointer Picture) : Shown :=
    let (picData, live) := s.heap.fetch turn.garbage source
    { button, picData, live }
  let (button1, triggered1) := buttonScan s.button1 turn.sample1
  let shown1 := if triggered1 ≠ 0 then [show' .button1 (.block s.imageTest)] else []
  let (button2, triggered2) := buttonScan s.button2 turn.sample2
  let shown2 := if triggered2 ≠ 0 then [show' .button2 (.static imageAsuka)] else []
  ({ s with button1, button2 }, shown1 ++ shown2)

/-- The loop of `thread_Eink_Start`. -/
def threadEink (imageAsuka : Picture) : Transducer EinkState EinkTurn Shown where
  step := einkTurn imageAsuka

/-- Everything a run of the thread shows. -/
def shownBy (font24Cn : CFont) (imageAsuka : Picture) (heap : Heap Picture) (held : Picture)
    (turns : List EinkTurn) : List Shown :=
  (threadEink imageAsuka).trace (threadEinkSetup font24Cn heap held) turns

/-! ## What should be shown -/

/-- The triggers of the two buttons, in the order of the scans. -/
def triggerOrder : Button → Button → List EinkTurn → List PictureButton
  | _, _, [] => []
  | button1, button2, turn :: rest =>
      let (next1, triggered1) := buttonScan button1 turn.sample1
      let (next2, triggered2) := buttonScan button2 turn.sample2
      (if triggered1 = 1 then [.button1] else []) ++ (if triggered2 = 1 then [.button2] else []) ++
        triggerOrder next1 next2 rest

/-- The picture of a button. -/
def pictureOf (first imageAsuka : Picture) : PictureButton → Picture
  | .button1 => first
  | .button2 => imageAsuka

/-- Each trigger, in order, sends the panel the bytes of its picture, and all of them are read
from live blocks or static memory. -/
def RightPictures (first imageAsuka : Picture) (order : List PictureButton)
    (shown : List Shown) : Prop :=
  shown.map (fun s => (s.button, s.ops.filterMap imageByte?)) =
      order.map (fun button => (button, (pictureOf first imageAsuka button).toList)) ∧
    ∀ s ∈ shown, s.live = true

/-- A run shows the right pictures: for the first button, what `Display_First` left. -/
def ShowsPictures (font24Cn : CFont) (imageAsuka : Picture) (heap : Heap Picture)
    (held : Picture) (turns : List EinkTurn) : Prop :=
  RightPictures (firstPicture font24Cn held) imageAsuka (triggerOrder buttonInit buttonInit turns)
    (shownBy font24Cn imageAsuka heap held turns)

/-- A picture is sent as it is. -/
theorem imageByte_ops (shown : Shown) :
    shown.ops.filterMap imageByte? = shown.picData.toList := by
  have quiet : (epdInitFast ++ [PanelOp.writeCmd 0x10]).filterMap imageByte? = [] ∧
      (epdUpdate ++ epdSleep).filterMap imageByte? = [] := by decide
  have split : shown.ops = (epdInitFast ++ [PanelOp.writeCmd 0x10]) ++
      (sendImage shown.picData.toList ++ (epdUpdate ++ epdSleep)) := by
    simp only [Shown.ops, epdDisplayImage]
    simp only [List.append_assoc]
  rw [split, List.filterMap_append, quiet.1, List.filterMap_append, quiet.2,
    imageByte_sendImage, List.nil_append, List.append_nil]

/-- **A turn after the block was freed.** -/
theorem einkTurn_freed (imageAsuka : Picture) {s : EinkState} (turn : EinkTurn)
    (freed : ∀ garbage, s.heap.fetch garbage (.block s.imageTest) = (garbage, false)) :
    (einkTurn imageAsuka s turn).2 =
      (if (buttonScan s.button1 turn.sample1).2 = 1 then [⟨.button1, turn.garbage, false⟩]
        else []) ++
      if (buttonScan s.button2 turn.sample2).2 = 1 then [⟨.button2, imageAsuka, true⟩] else [] := by
  have returns : ∀ (btn : Button) (sample : BitAction),
      (buttonScan btn sample).2 ≠ 0 ↔ (buttonScan btn sample).2 = 1 := by
    intro btn sample
    obtain none | one := buttonScan_cases btn sample
    · rw [none]
      decide
    · rw [one]
      decide
  simp only [einkTurn]
  simp only [returns, freed, Heap.fetch_static]

theorem rightPictures_append {first imageAsuka : Picture} {order order' : List PictureButton}
    {shown shown' : List Shown} (right : RightPictures first imageAsuka order shown) :
    RightPictures first imageAsuka (order ++ order') (shown ++ shown') ↔
      RightPictures first imageAsuka order' shown' := by
  obtain ⟨bytes, live⟩ := right
  simp only [RightPictures]
  rw [List.map_append, List.map_append, bytes, List.append_cancel_left_eq,
    List.forall_mem_append, and_iff_right live]

/-- **A run after the block was freed.** -/
theorem run_freed (first imageAsuka : Picture) {s : EinkState} (turns : List EinkTurn)
    (freed : ∀ garbage, s.heap.fetch garbage (.block s.imageTest) = (garbage, false)) :
    RightPictures first imageAsuka (triggerOrder s.button1 s.button2 turns)
        ((threadEink imageAsuka).trace s turns) ↔
      ∀ k, ¬ Triggers s.button1 (turns.map EinkTurn.sample1) k := by
  induction turns generalizing s with
  | nil => simp [triggerOrder, Triggers, RightPictures]
  | cons turn rest ih =>
      rw [List.map_cons, never_triggers_cons, Transducer.trace_cons]
      show RightPictures _ _ _ ((einkTurn imageAsuka s turn).2 ++ _) ↔ _
      rw [einkTurn_freed imageAsuka turn freed, triggerOrder]
      by_cases pressed : (buttonScan s.button1 turn.sample1).2 = 1
      · -- what the first button shows is read from the freed block
        have dead : ¬ RightPictures first imageAsuka
            (triggerOrder s.button1 s.button2 (turn :: rest))
            ((if (buttonScan s.button1 turn.sample1).2 = 1 then
                [⟨.button1, turn.garbage, false⟩] else []) ++
              (if (buttonScan s.button2 turn.sample2).2 = 1 then
                [⟨.button2, imageAsuka, true⟩] else []) ++
              (threadEink imageAsuka).trace ((threadEink imageAsuka).step s turn).1 rest) := by
          rintro ⟨-, live⟩
          rw [if_pos pressed] at live
          exact Bool.false_ne_true (live _ List.mem_cons_self)
        exact ⟨fun right => absurd right dead, fun both => absurd pressed both.1⟩
      · have second : RightPictures first imageAsuka
            (if (buttonScan s.button2 turn.sample2).2 = 1 then [.button2] else [])
            (if (buttonScan s.button2 turn.sample2).2 = 1 then [⟨.button2, imageAsuka, true⟩]
              else []) := by
          by_cases pressed2 : (buttonScan s.button2 turn.sample2).2 = 1
          · rw [if_pos pressed2, if_pos pressed2]
            refine ⟨?_, List.forall_mem_singleton.mpr rfl⟩
            rw [List.map_singleton, List.map_singleton, imageByte_ops]
            rfl
          · rw [if_neg pressed2, if_neg pressed2]
            exact ⟨rfl, List.forall_mem_nil _⟩
        simp only [if_neg pressed, List.nil_append]
        rw [rightPictures_append second, and_iff_right pressed]
        exact ih freed

/-- **The pictures are the right ones exactly when the first button is never pressed for three
samples in a row.** -/
theorem shows_pictures_iff (font24Cn : CFont) (imageAsuka : Picture) (heap : Heap Picture)
    (held : Picture) (turns : List EinkTurn) :
    ShowsPictures font24Cn imageAsuka heap held turns ↔
      ∀ k, ¬ PressedThrice (turns.map EinkTurn.sample1) k := by
  have idle : buttonInit.state = .idle := rfl
  rw [← never_triggers_iff idle]
  exact run_freed _ imageAsuka turns fun garbage => Heap.fetch_free _ _ garbage

/-- The first button pressed for three samples: it shows what lies in the freed block. -/
theorem freed_picture_shown :
    ¬ ∀ (font24Cn : CFont) (imageAsuka : Picture) (heap : Heap Picture) (held : Picture)
      (turns : List EinkTurn), ShowsPictures font24Cn imageAsuka heap held turns := by
  intro right
  let blank : Picture := Vector.replicate epdBufferSize 0x55
  let pressed : EinkTurn := { sample1 := .reset, sample2 := .set, garbage := blank }
  let heap : Heap Picture := { blocks := fun _ => none, next := 0 }
  have never := (run_freed _ blank [pressed, pressed, pressed]
    fun garbage => Heap.fetch_free _ _ garbage).mp
      (right emptyFont blank heap blank [pressed, pressed, pressed])
  exact never 2 ⟨.reset, rfl, rfl⟩

end EinkLiteOS.User
