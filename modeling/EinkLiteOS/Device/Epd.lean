/-
# Device.Epd -- the panel driver

The functions of `Device/EPD.c` that the two threads call, each as the list of
operations it makes on the panel: reset pin, delays, busy waits, command bytes and
data bytes.  A data byte carries what it is, a parameter of the command before it or
a byte of a picture; the panel cannot see that, and only statements about picture
bytes use it.
-/
import Mathlib.Data.List.Basic

namespace EinkLiteOS.Device

set_option autoImplicit false

/-- What a data byte is sent as. -/
inductive DataKind where
  | param
  | image
  deriving DecidableEq, Repr

/-- One operation on the panel. -/
inductive PanelOp where
  /-- `EPD_RST_CLR` -/
  | rstClr
  /-- `EPD_RST_SET` -/
  | rstSet
  | delay (ms : Nat)
  | checkBusy
  | writeCmd (cmd : UInt8)
  | writeData (kind : DataKind) (data : UInt8)
  deriving DecidableEq, Repr

def epdWidth : Nat := 128
def epdHeight : Nat := 250

/-- `EPD_BUFFER_SIZE`, four pixels to a byte. -/
def epdBufferSize : Nat := epdWidth * epdHeight / 4

def epdColorBlack : UInt8 := 0x00
def epdColorWhite : UInt8 := 0x01
def epdColorYellow : UInt8 := 0x02
def epdColorRed : UInt8 := 0x03

/-- Wakes the panel. -/
def epdInitFast : List PanelOp :=
  [.delay 100, .rstClr, .delay 10, .rstSet, .delay 10, .checkBusy,
    .writeCmd 0xe0, .writeData .param 0x02, .writeCmd 0x04, .checkBusy]

/-- Power off, then deep sleep. -/
def epdSleep : List PanelOp :=
  [.writeCmd 0x02, .writeData .param 0x00, .checkBusy, .writeCmd 0x07, .writeData .param 0xA5]

/-- Shows what has been sent. -/
def epdUpdate : List PanelOp := [.writeCmd 0x12, .writeData .param 0x00, .checkBusy]

def colorGet (color : UInt8) : UInt8 :=
  if color = 0x00 then epdColorBlack
  else if color = 0x01 then epdColorWhite
  else if color = 0x02 then epdColorYellow
  else if color = 0x03 then epdColorRed
  else epdColorWhite

/-- The loop body of both display functions: a byte is taken apart into four colours
and put together again. -/
def recombine (temp1 : UInt8) : UInt8 :=
  let dataH1 := colorGet (temp1 >>> 6 &&& 0x03) <<< 6
  let dataH2 := colorGet (temp1 >>> 4 &&& 0x03) <<< 4
  let dataL1 := colorGet (temp1 >>> 2 &&& 0x03) <<< 2
  let dataL2 := colorGet (temp1 &&& 0x03)
  dataH1 ||| dataH2 ||| dataL1 ||| dataL2

/-- The loop of both display functions. -/
def sendImage (picData : List UInt8) : List PanelOp :=
  picData.map fun temp1 => .writeData .image (recombine temp1)

/-- Shows a whole picture. -/
def epdDisplayImage (picData : Vector UInt8 epdBufferSize) : List PanelOp :=
  [.writeCmd 0x10] ++ sendImage picData.toList ++ epdUpdate

/-- Sends part `number` of a picture; only part 1 starts the transfer. -/
def epdDisplayImageParagraph (picData : List UInt8) (number : UInt8) : List PanelOp :=
  (if number = 1 then [.writeCmd 0x10] else []) ++ sendImage picData

/-- **The four colours of a byte are the byte.** -/
theorem recombine_eq (temp1 : UInt8) : recombine temp1 = temp1 := by
  have all : ∀ n : Fin 256, recombine (UInt8.ofFin n) = UInt8.ofFin n := by decide +kernel
  exact all temp1.toFin

/-! ## What reaches the panel -/

/-- A data byte, of a picture or not. -/
def PanelOp.isData : PanelOp → Bool
  | .writeData _ _ => true
  | _ => false

/-- A byte of a picture. -/
def imageByte? : PanelOp → Option UInt8
  | .writeData .image data => some data
  | _ => none

/-- The data bytes since the last data start, command `0x10`, with one more operation. -/
def sinceStart (held : List UInt8) : PanelOp → List UInt8
  | .writeCmd cmd => if cmd = 0x10 then [] else held
  | .writeData _ data => held ++ [data]
  | _ => held

/-- The data bytes sent since the most recent command `0x10`. -/
def dataSinceStart (ops : List PanelOp) : List UInt8 := ops.foldl sinceStart []

theorem sinceStart_sendImage (picData held : List UInt8) :
    (sendImage picData).foldl sinceStart held = held ++ picData := by
  induction picData generalizing held with
  | nil => exact (List.append_nil held).symm
  | cons data rest ih =>
      rw [sendImage, List.map_cons, List.foldl_cons, ← sendImage, ih, sinceStart, recombine_eq,
        List.append_assoc, List.singleton_append]

theorem imageByte_sendImage (picData : List UInt8) :
    (sendImage picData).filterMap imageByte? = picData := by
  simp [sendImage, List.filterMap_map, Function.comp_def, imageByte?, recombine_eq]

end EinkLiteOS.Device
