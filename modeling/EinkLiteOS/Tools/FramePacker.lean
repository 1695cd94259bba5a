/-
# Tools.FramePacker -- the packer on the PC side

`tools/image_frame_packer.py` on the side of its merge conflict that defines
`crc16_calculate`.  Python integers are unbounded, so a frame is a list of
naturals; nothing in the packer checks that they are bytes.

`createFrame_eq` says that for byte-sized packet numbers a packed frame is the
frame of the protocol (`User.Frame`), and `packImageToFrames_eq` lifts it to a
whole image of at most 255 packets.
-/
import EinkLiteOS.Theory.Slices
import EinkLiteOS.User.Frame

namespace EinkLiteOS.Tools

open EinkLiteOS.Theory
open EinkLiteOS.Theory.BigEndian
open EinkLiteOS.User (Frame)

set_option autoImplicit false

/-! ## The script -/

def frameHeader1 : Nat := 0xA5
def frameHeader2 : Nat := 0x5A
def cmdTypeImage : Nat := 0xD1
def cmdImageTransfer : Nat := 0x01
def maxImageDataLen : Nat := 1022

/-- One round of the inner loop of `crc16_calculate`. -/
def crcBit (crc : Nat) : Nat :=
  if crc &&& 1 ≠ 0 then (crc >>> 1) ^^^ 0xA001 else crc >>> 1

/-- `crc16_calculate(data)`. -/
def crc16Calculate (data : List Nat) : Nat :=
  data.foldl (fun crc byte => crcBit^[8] (crc ^^^ byte)) 0xFFFF

/-- `create_frame(total_packets, packet_num, data)`. -/
def createFrame (totalPackets packetNum : Nat) (data : List Nat) : List Nat :=
  let payloadLen := data.length + 2
  let frame :=
    [frameHeader1, frameHeader2, cmdTypeImage, cmdImageTransfer,
      payloadLen >>> 8 &&& 0xFF, payloadLen &&& 0xFF, totalPackets, packetNum] ++ data
  let crcData :=
    [cmdTypeImage, cmdImageTransfer, payloadLen >>> 8 &&& 0xFF, payloadLen &&& 0xFF] ++
      frame.drop 6
  let crcValue := crc16Calculate crcData
  frame ++ [crcValue >>> 8 &&& 0xFF, crcValue &&& 0xFF]

/-- `pack_image_to_frames(image_data)`. -/
def packImageToFrames (imageData : List Nat) : List (List Nat) :=
  let totalSize := imageData.length
  let totalPackets := (totalSize + maxImageDataLen - 1) / maxImageDataLen
  (List.range totalPackets).map fun i =>
    let packetNum := i + 1
    let offset := i * maxImageDataLen
    let dataLen := min maxImageDataLen (totalSize - offset)
    let packetData := (imageData.drop offset).take dataLen
    createFrame totalPackets packetNum packetData

/-! ## The two checksums are one -/

theorem crcBit_toNat (w : UInt16) : crcBit w.toNat = (User.crcBit w).toNat := by
  have odd : w &&& 1 = 1 ↔ w.toNat &&& 1 ≠ 0 := by
    rw [← UInt16.toNat_inj, UInt16.toNat_and]
    show w.toNat &&& 1 = 1 ↔ w.toNat &&& 1 ≠ 0
    rw [Nat.and_one_is_mod]
    omega
  simp only [crcBit, User.crcBit]
  by_cases low : w &&& 1 = 1
  · rw [if_pos (odd.mp low), if_pos low, UInt16.toNat_xor, UInt16.toNat_shiftRight]
    rfl
  · rw [if_neg (mt odd.mpr low), if_neg low, UInt16.toNat_shiftRight]
    rfl

theorem crcBits_toNat (n : Nat) (w : UInt16) : crcBit^[n] w.toNat = (User.crcBit^[n] w).toNat := by
  induction n generalizing w with
  | zero => rfl
  | succ n ih => rw [Function.iterate_succ_apply, Function.iterate_succ_apply, crcBit_toNat, ih]

/-- **The packer and the firmware compute one checksum.** -/
theorem crc16Calculate_toNat (data : List UInt8) :
    crc16Calculate (data.map UInt8.toNat) = (User.crc16Calculate data).toNat := by
  have folded : ∀ w : UInt16,
      (data.map UInt8.toNat).foldl (fun crc byte => crcBit^[8] (crc ^^^ byte)) w.toNat =
        (data.foldl User.crcByte w).toNat := by
    induction data with
    | nil => intro w; rfl
    | cons b rest ih =>
        intro w
        have mixed : w.toNat ^^^ b.toNat = (w ^^^ b.toUInt16).toNat := by
          rw [UInt16.toNat_xor, UInt8.toNat_toUInt16]
        rw [List.map_cons, List.foldl_cons, List.foldl_cons, mixed, crcBits_toNat]
        exact ih _
  exact folded 0xFFFF

/-! ## A packed frame is the protocol's frame -/

theorem imagePayload_nonempty (total num : UInt8) (data : List UInt8) :
    1 ≤ (total :: num :: data).length := Nat.succ_pos _

theorem imagePayload_fits (total num : UInt8) {data : List UInt8}
    (fits : data.length ≤ maxImageDataLen) :
    (total :: num :: data).length ≤ User.maxDataLen := by
  simp only [maxImageDataLen] at fits
  simp only [List.length_cons, User.maxDataLen]
  omega

/-- The frame of image packet `num` of `total`. -/
def imageFrame (total num : UInt8) (data : List UInt8) (fits : data.length ≤ maxImageDataLen) :
    Frame where
  cmdType := User.cmdTypeImage
  cmd := User.cmdImageTransfer
  payload := total :: num :: data
  nonempty := imagePayload_nonempty total num data
  fits := imagePayload_fits total num fits

/-- The script's byte split of a 16-bit value. -/
theorem split_toNat (w : UInt16) :
    w.toNat >>> 8 &&& 0xFF = (highByte w).toNat ∧ w.toNat &&& 0xFF = (lowByte w).toNat := by
  have bound := w.toNat_lt
  rw [toNat_highByte, toNat_lowByte, and_byteMask, and_byteMask, Nat.shiftRight_eq_div_pow]
  omega

/-- **A packed frame is the protocol's frame**, for packet numbers that are bytes. -/
theorem createFrame_eq (total num : UInt8) (data : List UInt8)
    (fits : data.length ≤ maxImageDataLen) :
    createFrame total.toNat num.toNat (data.map UInt8.toNat) =
      (imageFrame total num data fits).bytes.map UInt8.toNat := by
  have len : data.length + 2 = (imageFrame total num data fits).dataLen.toNat := by
    rw [Frame.toNat_dataLen]
    rfl
  obtain ⟨high, low⟩ := split_toNat (imageFrame total num data fits).dataLen
  have covered : [cmdTypeImage, cmdImageTransfer,
      (highByte (imageFrame total num data fits).dataLen).toNat,
      (lowByte (imageFrame total num data fits).dataLen).toNat] ++
        (total.toNat :: num.toNat :: data.map UInt8.toNat) =
      (imageFrame total num data fits).covered.map UInt8.toNat := rfl
  have crc := crc16Calculate_toNat (imageFrame total num data fits).covered
  obtain ⟨crcHigh, crcLow⟩ := split_toNat (imageFrame total num data fits).crc
  rw [← covered] at crc
  simp only [createFrame, List.length_map, len, high, low, List.cons_append, List.nil_append,
    List.drop_succ_cons, List.drop_zero] at crc ⊢
  rw [crc, ← Frame.crc, crcHigh, crcLow]
  rw [Frame.bytes, List.map_cons, List.map_cons, List.map_append, ← covered]
  rfl

/-! ## A packed image -/

/-- `total_packets` of an image: its length over `MAX_IMAGE_DATA_LEN`, rounded up. -/
def packetCount (image : List UInt8) : Nat := (image.length + 1021) / 1022

theorem slice_fits (image : List UInt8) (i : Nat) :
    (Slices.slice maxImageDataLen image i).length ≤ maxImageDataLen := by
  rw [Slices.length_slice]
  exact Nat.min_le_left _ _

/-- Packet `i` (from 0) of an image. -/
def packet (image : List UInt8) (i : Nat) : Frame :=
  imageFrame (UInt8.ofNat (packetCount image)) (UInt8.ofNat (i + 1))
    (Slices.slice maxImageDataLen image i) (slice_fits image i)

/-- The frames of an image. -/
def imageFrames (image : List UInt8) : List Frame :=
  (List.range (packetCount image)).map (packet image)

/-- **The packer packs an image into the frames of the protocol**, up to 255
packets. -/
theorem packImageToFrames_eq (image : List UInt8) (bounded : image.length ≤ 255 * 1022) :
    packImageToFrames (image.map UInt8.toNat) =
      (imageFrames image).map fun f => f.bytes.map UInt8.toNat := by
  have count : packetCount image < 256 := by
    simp only [packetCount]
    omega
  simp only [packImageToFrames, imageFrames, List.map_map, List.length_map]
  apply List.map_congr_left
  intro i member
  have below : i < packetCount image := List.mem_range.mp member
  have totalByte : (UInt8.ofNat (packetCount image)).toNat = packetCount image :=
    UInt8.toNat_ofNat_of_lt' count
  have numByte : (UInt8.ofNat (i + 1)).toNat = i + 1 :=
    UInt8.toNat_ofNat_of_lt' (show i + 1 < 256 by omega)
  have piece : (((image.map UInt8.toNat).drop (i * maxImageDataLen)).take
      (min maxImageDataLen (image.length - i * maxImageDataLen))) =
        (Slices.slice maxImageDataLen image i).map UInt8.toNat := by
    have cut : (image.drop (i * maxImageDataLen)).take
        (min maxImageDataLen (image.length - i * maxImageDataLen)) =
          Slices.slice maxImageDataLen image i := by
      rw [Slices.slice, List.take_eq_take_iff, List.length_drop]
      omega
    rw [← List.map_drop, ← List.map_take, cut]
  rw [Function.comp_apply, packet, ← createFrame_eq, totalByte, numByte, piece]
  rfl

/-- The image data of the packets, in order, is the image. -/
theorem imageFrames_payload (image : List UInt8) :
    (imageFrames image).flatMap (fun f => f.payload.drop 2) = image := by
  rw [imageFrames, List.flatMap_map]
  apply Slices.flatMap_slice
  simp only [packetCount, maxImageDataLen]
  omega

end EinkLiteOS.Tools
