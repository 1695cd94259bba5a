/-
# User.ImagePath -- an image in packets, and the same image at once

The Eink thread shows a picture with `EPD_Init_Fast`, `EPD_DisplayImage` and
`EPD_Sleep`.  The WiFi thread gets it in packets and does the same across calls of
`ProcessImageData`: the first one wakes the panel and starts the data, the last one
refreshes and puts it to sleep, and with a single packet both are one call.
-/
import EinkLiteOS.User.ThreadWifi

namespace EinkLiteOS.User

open EinkLiteOS.Theory
open EinkLiteOS.Device

set_option autoImplicit false

/-- The arguments of one call of `ProcessImageData`. -/
structure ImageCall where
  totalPackets : UInt8
  packetNum : UInt8
  data : List UInt8

/-- `ProcessImageData`, call after call. -/
def imageCalls : Transducer UInt8 ImageCall WifiEffect where
  step lastPacket call := processImageData lastPacket call.totalPackets call.packetNum call.data

/-- The calls for the chunks from number `k + 1` on, of `total` in all. -/
def chunkCalls (total : UInt8) : Nat → List (List UInt8) → List ImageCall
  | _, [] => []
  | k, chunk :: rest => ⟨total, UInt8.ofNat (k + 1), chunk⟩ :: chunkCalls total (k + 1) rest

theorem panelOps_imageCalls (lastPacket : UInt8) (calls : List ImageCall) :
    panelOps (imageCalls.trace lastPacket calls) =
      calls.flatMap fun call => packetOps call.totalPackets call.packetNum call.data := by
  induction calls generalizing lastPacket with
  | nil => rfl
  | cons call rest ih =>
      rw [Transducer.trace_cons, panelOps_append, ih, List.flatMap_cons]
      exact congrArg (· ++ _) (panelOps_processImageData lastPacket _ _ _)

theorem sendImage_append (front back : List UInt8) :
    sendImage (front ++ back) = sendImage front ++ sendImage back := List.map_append

theorem ofNat_ne_ofNat {m n : Nat} (below : m < n) (bounded : n < 256) :
    UInt8.ofNat m ≠ UInt8.ofNat n := by
  intro same
  have value := congrArg UInt8.toNat same
  rw [UInt8.toNat_ofNat_of_lt' (Nat.lt_trans below bounded),
    UInt8.toNat_ofNat_of_lt' bounded] at value
  omega

/-- A later chunk is sent as it is. -/
theorem sentOps_later {k : Nat} (later : 0 < k) (bounded : k + 1 < 256) (chunk : List UInt8) :
    sentOps (UInt8.ofNat (k + 1)) chunk = sendImage chunk := by
  have notFirst : UInt8.ofNat (k + 1) ≠ 1 :=
    (ofNat_ne_ofNat (Nat.succ_lt_succ later) bounded).symm
  simp only [sentOps, epdDisplayImageParagraph, if_neg notFirst, List.nil_append]

/-- The chunks behind the first one: their bytes, the refresh, and sleep. -/
theorem laterChunks {k : Nat} (later : 0 < k) {chunks : List (List UInt8)} (some : chunks ≠ [])
    (bounded : k + chunks.length < 256) :
    (chunkCalls (UInt8.ofNat (k + chunks.length)) k chunks).flatMap
        (fun call => packetOps call.totalPackets call.packetNum call.data) =
      sendImage chunks.flatten ++ (epdUpdate ++ epdSleep) := by
  induction chunks generalizing k with
  | nil => exact absurd rfl some
  | cons chunk rest ih =>
      rw [List.length_cons] at bounded
      rw [chunkCalls, List.flatMap_cons, packetOps, sentOps_later later (by omega),
        List.flatten_cons, sendImage_append]
      cases rest with
      | nil =>
          rw [List.length_singleton, if_pos rfl]
          simp [chunkCalls, sendImage]
      | cons next rest =>
          have notLast : UInt8.ofNat (k + 1) ≠ UInt8.ofNat (k + (chunk :: next :: rest).length) :=
            ofNat_ne_ofNat (by simp only [List.length_cons]; omega) bounded
          have shift : k + (chunk :: next :: rest).length = k + 1 + (next :: rest).length := by
            simp only [List.length_cons]
            omega
          rw [if_neg notLast, shift, ih (Nat.succ_pos k) (List.cons_ne_nil _ _) (by omega)]
          simp

/-- **The packet path is the whole-image path**: cut an image into at most 255
chunks, and the calls of `ProcessImageData` do to the panel what `EPD_Init_Fast`,
`EPD_DisplayImage` and `EPD_Sleep` do, sending the bytes of the image. -/
theorem packet_path_refines (lastPacket : UInt8) (image : Vector UInt8 epdBufferSize)
    (chunks : List (List UInt8)) (cut : chunks.flatten = image.toList)
    (few : chunks.length ≤ 255) :
    panelOps (imageCalls.trace lastPacket (chunkCalls (UInt8.ofNat chunks.length) 0 chunks)) =
        epdInitFast ++ epdDisplayImage image ++ epdSleep ∧
      (epdInitFast ++ epdDisplayImage image ++ epdSleep).filterMap imageByte? = image.toList := by
  refine ⟨?_, ?_⟩
  · rw [panelOps_imageCalls, epdDisplayImage, ← cut]
    cases chunks with
    | nil =>
        have length := congrArg List.length cut
        rw [Vector.length_toList] at length
        cases length
    | cons first rest =>
        rw [chunkCalls, List.flatMap_cons, packetOps, sentOps, epdDisplayImageParagraph]
        cases rest with
        | nil => simp [chunkCalls]
        | cons next rest =>
            have notLast : UInt8.ofNat (0 + 1) ≠ UInt8.ofNat (first :: next :: rest).length :=
              ofNat_ne_ofNat (by simp only [List.length_cons]; omega) (Nat.lt_succ_of_le few)
            have shift : (first :: next :: rest).length = 0 + 1 + (next :: rest).length := by
              simp only [List.length_cons]
              omega
            rw [if_neg notLast, shift,
              laterChunks Nat.one_pos (List.cons_ne_nil _ _) (by rw [← shift]; omega)]
            simp [sendImage_append]
  · rw [epdDisplayImage, List.filterMap_append, List.filterMap_append, List.filterMap_append,
      List.filterMap_append, imageByte_sendImage]
    exact List.append_nil _ |>.trans (List.append_nil _)

/-- A white picture in eight packets. -/
theorem white_image_in_eight_packets :
    panelOps (imageCalls.trace 0
        (chunkCalls 8 0 (List.replicate 8 (List.replicate 1000 (0x55 : UInt8))))) =
        epdInitFast ++ epdDisplayImage (Vector.replicate epdBufferSize 0x55) ++ epdSleep ∧
      (epdInitFast ++ epdDisplayImage (Vector.replicate epdBufferSize 0x55) ++
        epdSleep).filterMap imageByte? = (Vector.replicate epdBufferSize (0x55 : UInt8)).toList := by
  have cut : (List.replicate 8 (List.replicate 1000 (0x55 : UInt8))).flatten =
      (Vector.replicate epdBufferSize (0x55 : UInt8)).toList := by
    rw [List.flatten_replicate_replicate, Vector.toList_replicate]
    rfl
  exact packet_path_refines 0 (Vector.replicate epdBufferSize 0x55)
    (List.replicate 8 (List.replicate 1000 0x55)) cut (by decide)

end EinkLiteOS.User
