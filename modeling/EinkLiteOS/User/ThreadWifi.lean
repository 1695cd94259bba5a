/-
# User.ThreadWifi -- what the WiFi thread does with a frame

`ProcessFrame` and `ProcessImageData` of `User/thread_WiFi.c`.  A call takes the
static `last_packet` and gives back its new value and its effects in order: what it
prints and what it does to the panel.  The thread is the transducer from frames to
these effects.

`last_packet` is written and never read: what reaches the panel is, packet by packet,
`ImagePacket.ops` (`panelOps_trace`), whatever came before.
-/
import EinkLiteOS.Device.Epd
import EinkLiteOS.User.RecData

namespace EinkLiteOS.User

open EinkLiteOS.Theory
open EinkLiteOS.Device

set_option autoImplicit false

/-- What the WiFi thread does besides changing its variables. -/
inductive WifiEffect where
  | printf (format : String) (args : List Nat)
  | panel (op : PanelOp)
  deriving DecidableEq, Repr

/-- `ProcessImageData(total_packets, packet_num, data, len)`, with the static
`last_packet` before and after. -/
def processImageData (_lastPacket totalPackets packetNum : UInt8) (data : List UInt8) :
    UInt8 × List WifiEffect :=
  let received := [.printf "接收图像包：%d/%d, 长度: %d\r\n"
    [packetNum.toNat, totalPackets.toNat, data.length]]
  let wake :=
    if packetNum = 1 then
      .printf "第一包图像,唤醒屏幕\r\n" [] :: epdInitFast.map WifiEffect.panel
    else []
  let send := (epdDisplayImageParagraph data packetNum).map .panel
  if packetNum = totalPackets then
    let lastPacket := 0
    (lastPacket, received ++ wake ++ send ++
      (.printf "接收完成,开始刷新屏幕\r\n" [] :: (epdUpdate ++ epdSleep).map .panel))
  else
    let lastPacket := packetNum
    (lastPacket, received ++ wake ++ send)

/-- `ProcessFrame(frame)`.  The packet numbers are the first two payload bytes. -/
def processFrame (lastPacket : UInt8) (frame : FrameData) : UInt8 × List WifiEffect :=
  if frame.cmdType = cmdTypeImage then
    if frame.cmd = cmdImageTransfer then
      if 2 < frame.dataLen then
        let totalPackets := frame.dataBuffer[0]
        let packetNum := frame.dataBuffer[1]
        let imageDataLen := frame.dataLen - 2
        processImageData lastPacket totalPackets packetNum
          ((frame.dataBuffer.toList.drop 2).take imageDataLen.toNat)
      else (lastPacket, [])
    else (lastPacket, [])
  else (lastPacket, [.printf "未知命令类型: %02X\r\n" [frame.cmdType.toNat]])

/-- A frame as the receiver hands it over: its length is in range and its checksum is
right. -/
structure CheckedFrame where
  data : FrameData
  lenOk : LenOk data
  checked : data.crcReceived = crc16Calculate data.covered

/-- The first payload byte, which is how many packets there are. -/
def CheckedFrame.totalPackets (f : CheckedFrame) : UInt8 := f.data.dataBuffer[0]

/-- The WiFi thread: it reads frames and acts. -/
def wifiThread : Transducer UInt8 CheckedFrame WifiEffect where
  step lastPacket frame := processFrame lastPacket frame.data

/-- What an effect does to the panel. -/
def WifiEffect.panel? : WifiEffect → Option PanelOp
  | .panel op => some op
  | .printf _ _ => none

/-- The operations on the panel among some effects. -/
def panelOps (effects : List WifiEffect) : List PanelOp := effects.filterMap WifiEffect.panel?

@[simp] theorem panelOps_append (front back : List WifiEffect) :
    panelOps (front ++ back) = panelOps front ++ panelOps back := List.filterMap_append

@[simp] theorem panelOps_panel (ops : List PanelOp) :
    panelOps (ops.map WifiEffect.panel) = ops := by
  simp [panelOps, List.filterMap_map, Function.comp_def, WifiEffect.panel?]

@[simp] theorem panelOps_printf (format : String) (args : List Nat) (effects : List WifiEffect) :
    panelOps (.printf format args :: effects) = panelOps effects := rfl

@[simp] theorem panelOps_nil : panelOps [] = [] := rfl

/-! ## Image packets -/

/-- What one call of `ProcessImageData` sends before the refresh. -/
def sentOps (packetNum : UInt8) (data : List UInt8) : List PanelOp :=
  (if packetNum = 1 then epdInitFast else []) ++ epdDisplayImageParagraph data packetNum

/-- What one call of `ProcessImageData` does to the panel. -/
def packetOps (totalPackets packetNum : UInt8) (data : List UInt8) : List PanelOp :=
  sentOps packetNum data ++ if packetNum = totalPackets then epdUpdate ++ epdSleep else []

/-- The panel sees of `ProcessImageData` its arguments, not `last_packet`. -/
theorem panelOps_processImageData (lastPacket totalPackets packetNum : UInt8)
    (data : List UInt8) :
    panelOps (processImageData lastPacket totalPackets packetNum data).2 =
      packetOps totalPackets packetNum data := by
  by_cases first : packetNum = 1
  · by_cases last : packetNum = totalPackets
    · simp only [processImageData, packetOps, sentOps, if_pos last, if_pos first]
      simp
    · simp only [processImageData, packetOps, sentOps, if_neg last, if_pos first]
      simp
  · by_cases last : packetNum = totalPackets
    · simp only [processImageData, packetOps, sentOps, if_pos last, if_neg first]
      simp
    · simp only [processImageData, packetOps, sentOps, if_neg last, if_neg first]
      simp

/-- What an image frame carries: its place in the image, and some bytes of it. -/
structure ImagePacket where
  total : UInt8
  num : UInt8
  data : List UInt8
  nonempty : data ≠ []

namespace ImagePacket

/-- The packet is the last of its image. -/
def IsLast (p : ImagePacket) : Prop := p.num = p.total

instance (p : ImagePacket) : Decidable p.IsLast := inferInstanceAs (Decidable (p.num = p.total))

/-- What a packet sends before the refresh. -/
def sent (p : ImagePacket) : List PanelOp := sentOps p.num p.data

/-- What a packet does to the panel. -/
def ops (p : ImagePacket) : List PanelOp := packetOps p.total p.num p.data

theorem ops_of_isLast {p : ImagePacket} (last : p.IsLast) :
    p.ops = p.sent ++ (epdUpdate ++ epdSleep) :=
  congrArg (p.sent ++ ·) (if_pos last)

theorem ops_of_not_isLast {p : ImagePacket} (notLast : ¬ p.IsLast) : p.ops = p.sent :=
  (congrArg (p.sent ++ ·) (if_neg notLast)).trans (List.append_nil _)

end ImagePacket

theorem CheckedFrame.image_ne_nil (f : CheckedFrame) (long : 2 < f.data.dataLen) :
    (f.data.dataBuffer.toList.drop 2).take (f.data.dataLen - 2).toNat ≠ [] := by
  have atLeast : 2 < f.data.dataLen.toNat := UInt16.lt_iff_toNat_lt.mp long
  have left : (f.data.dataLen - 2).toNat = f.data.dataLen.toNat - 2 :=
    UInt16.toNat_sub_of_le _ _ (UInt16.le_of_lt long)
  intro empty
  have length := congrArg List.length empty
  rw [List.length_take, List.length_drop, Vector.length_toList, left, List.length_nil] at length
  simp only [maxDataLen] at length
  omega

/-- The image packet in a frame, if there is one. -/
def CheckedFrame.packet? (f : CheckedFrame) : Option ImagePacket :=
  if h : f.data.cmdType = cmdTypeImage ∧ f.data.cmd = cmdImageTransfer ∧ 2 < f.data.dataLen then
    some ⟨f.data.dataBuffer[0], f.data.dataBuffer[1],
      (f.data.dataBuffer.toList.drop 2).take (f.data.dataLen - 2).toNat, f.image_ne_nil h.2.2⟩
  else none

/-- The image packets of some frames. -/
def packets (frames : List CheckedFrame) : List ImagePacket := frames.filterMap CheckedFrame.packet?

/-- The frame with its checksum. -/
def FrameData.sealed (d : FrameData) : FrameData :=
  { d with crcReceived := crc16Calculate d.covered }

theorem FrameData.sealed_checked (d : FrameData) :
    d.sealed.crcReceived = crc16Calculate d.sealed.covered := by
  rw [show d.sealed.covered = d.covered from rfl, FrameData.sealed]

/-- An image frame with one image byte. -/
def packetFrame (total num data : UInt8) : CheckedFrame where
  data := FrameData.sealed
    { cmdType := cmdTypeImage
      cmd := cmdImageTransfer
      dataLen := 3
      dataBuffer := ((FrameData.zero.dataBuffer.set 0 total).set 1 num).set 2 data
      crcReceived := 0 }
  lenOk := ⟨show 0 < (3 : UInt16).toNat by decide, show (3 : UInt16).toNat ≤ maxDataLen by decide⟩
  checked := FrameData.sealed_checked _

theorem packetFrame_packet (total num data : UInt8) :
    (packetFrame total num data).packet? = some ⟨total, num, [data], List.cons_ne_nil _ _⟩ := by
  have isPacket : (packetFrame total num data).data.cmdType = cmdTypeImage ∧
      (packetFrame total num data).data.cmd = cmdImageTransfer ∧
        2 < (packetFrame total num data).data.dataLen :=
    ⟨rfl, rfl, show (2 : UInt16) < 3 by decide⟩
  have third : 2 < (packetFrame total num data).data.dataBuffer.toList.length := by
    rw [Vector.length_toList]
    decide
  rw [CheckedFrame.packet?, dif_pos isPacket]
  simp only [Option.some.injEq, ImagePacket.mk.injEq]
  refine ⟨?_, ?_, ?_⟩
  · simp [packetFrame, FrameData.sealed]
  · simp [packetFrame, FrameData.sealed]
  · have one : ((packetFrame total num data).data.dataLen - 2).toNat = 1 := by
      show ((3 : UInt16) - 2).toNat = 1
      decide
    rw [List.drop_eq_getElem_cons third, one, List.take_succ_cons, List.take_zero]
    simp [packetFrame, FrameData.sealed]

/-- The panel sees of `ProcessFrame` what the image packet in the frame says. -/
theorem panelOps_step (lastPacket : UInt8) (f : CheckedFrame) :
    panelOps (wifiThread.step lastPacket f).2 = f.packet?.toList.flatMap ImagePacket.ops := by
  simp only [wifiThread, processFrame, CheckedFrame.packet?]
  by_cases isImage : f.data.cmdType = cmdTypeImage
  · by_cases isTransfer : f.data.cmd = cmdImageTransfer
    · by_cases long : 2 < f.data.dataLen
      · simp only [isImage, isTransfer, long, and_self, if_true, dite_true]
        rw [Option.toList_some, List.flatMap_singleton, panelOps_processImageData, ImagePacket.ops]
      · simp [isImage, isTransfer, long]
    · simp [isImage, isTransfer]
  · simp [isImage]

/-- **What reaches the panel depends on the image packets alone.** -/
theorem panelOps_trace (lastPacket : UInt8) (frames : List CheckedFrame) :
    panelOps (wifiThread.trace lastPacket frames) = (packets frames).flatMap ImagePacket.ops := by
  induction frames generalizing lastPacket with
  | nil => rfl
  | cons f rest ih =>
      rw [Transducer.trace_cons, panelOps_append, ih, panelOps_step, packets, packets,
        List.filterMap_cons]
      cases f.packet? with
      | none => rfl
      | some p => simp

end EinkLiteOS.User
