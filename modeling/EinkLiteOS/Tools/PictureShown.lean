/-
# Tools.PictureShown -- from the converter's file to the glass

The whole way of a picture: the C text of the converter, the packer that reads it and cuts
the arrays into frames, the bytes on the air with noise between the frames, the receiver's
interrupt and the WiFi thread on the board, the driver, the wires and the panel's controller.

The bytes come in while the thread works, in any run in which the thread is in time, which is
what the sender's pauses are for.  The images are of the panel's size, and nobody presses a
button meanwhile.
-/
import EinkLiteOS.Device.Controller
import EinkLiteOS.Tools.CArrayText
import EinkLiteOS.Tools.FrameRoundTrip
import EinkLiteOS.User.ImagePath
import EinkLiteOS.User.ThreadReads

namespace EinkLiteOS.Tools

open EinkLiteOS.Theory EinkLiteOS.Theory.Quads EinkLiteOS.Theory.SerialBus
open EinkLiteOS.User EinkLiteOS.Device

set_option autoImplicit false

/-! ## The calls of the driver -/

/-- The calls of the driver that `ProcessImageData` makes. -/
def packetCalls (totalPackets packetNum : UInt8) (data : List UInt8) : List DriverCall :=
  (if packetNum = 1 then [.initFast] else []) ++ [.displayImageParagraph data packetNum] ++
    if packetNum = totalPackets then [.update, .sleep] else []

theorem driverOps_append (front back : List DriverCall) :
    driverOps (front ++ back) = driverOps front ++ driverOps back := List.flatMap_append

theorem driverOps_packetCalls (totalPackets packetNum : UInt8) (data : List UInt8) :
    driverOps (packetCalls totalPackets packetNum data) =
      packetOps totalPackets packetNum data := by
  rw [packetCalls, driverOps_append, driverOps_append, packetOps, sentOps]
  congr 1
  · congr 1
    · split
      · exact List.append_nil _
      · rfl
    · exact List.append_nil _
  · split
    · show epdUpdate ++ (epdSleep ++ []) = _
      rw [List.append_nil]
    · rfl

/-- The frame carries a part of an image. -/
structure CarriesImage (f : Frame) : Prop where
  cmdType : f.cmdType = User.cmdTypeImage
  cmd : f.cmd = User.cmdImageTransfer
  long : 2 < f.payload.length

/-- The calls of the driver for an image frame. -/
def frameCalls (f : Frame) : List DriverCall :=
  packetCalls (f.payload.getD 0 0) (f.payload.getD 1 0) (f.payload.drop 2)

/-- A byte of the payload is where `ProcessFrame` looks for it. -/
theorem dataBuffer_eq {d : FrameData} {f : Frame} (holds : d.Holds f) {i : Nat}
    (inside : i < f.payload.length) (inBuffer : i < User.maxDataLen) :
    d.dataBuffer[i] = f.payload.getD i 0 := by
  have long : i < d.dataLen.toNat := by rw [holds.dataLen, f.toNat_dataLen]; exact inside
  have found := dataBuffer_getElem? d long
  rw [holds.payload, Vector.getElem?_eq_getElem inBuffer] at found
  rw [List.getD_eq_getElem?_getD, ← found]
  rfl

/-- **A frame in the buffer is shown as its calls say.** -/
theorem panelOps_holds {d : FrameData} {f : Frame} (holds : d.Holds f) (carries : CarriesImage f)
    (lastPacket : UInt8) :
    panelOps (processFrame lastPacket d).2 = driverOps (frameCalls f) := by
  have length : d.dataLen.toNat = f.payload.length := by rw [holds.dataLen, f.toNat_dataLen]
  have long : 2 < d.dataLen := by
    apply UInt16.lt_iff_toNat_lt.mpr
    rw [length]
    exact carries.long
  have data : (d.dataBuffer.toList.drop 2).take (d.dataLen - 2).toNat = f.payload.drop 2 := by
    have left : (d.dataLen - 2).toNat = d.dataLen.toNat - 2 :=
      UInt16.toNat_sub_of_le _ _ (UInt16.le_of_lt long)
    rw [← holds.payload, FrameData.payload, List.drop_take, left]
  have total := dataBuffer_eq holds (Nat.lt_trans Nat.zero_lt_two carries.long) (by decide)
  have num := dataBuffer_eq holds (Nat.lt_trans Nat.one_lt_two carries.long) (by decide)
  rw [processFrame, if_pos (holds.cmdType.trans carries.cmdType),
    if_pos (holds.cmd.trans carries.cmd), if_pos long, panelOps_processImageData, data, total, num,
    frameCalls, driverOps_packetCalls]

theorem panelOps_frames {ds : List FrameData} {frames : List Frame}
    (held : List.Forall₂ FrameData.Holds ds frames) (carry : ∀ f ∈ frames, CarriesImage f)
    (lastPacket : UInt8) :
    (ds.flatMap fun d => panelOps (processFrame lastPacket d).2) =
      driverOps (frames.flatMap frameCalls) := by
  induction held with
  | nil => rfl
  | cons holds rest ih =>
      obtain ⟨first, later⟩ := List.forall_mem_cons.mp carry
      rw [List.flatMap_cons, ih later, List.flatMap_cons, driverOps_append]
      exact congrArg (· ++ _) (panelOps_holds holds first lastPacket)

/-- What the receiver announces of frames with even gaps. -/
theorem announced_frames (index : UInt16) (frame : FrameData) {first : Noise}
    {segments : List (Frame × Noise)} (even : EvenGaps first segments) :
    List.Forall₂ FrameData.Holds
      (receiver.trace ⟨.header1, index, frame⟩ (streamOf first segments))
      (segments.map Prod.fst) := by
  have collected := (collected_iff 0 first segments).mpr even
  rw [Nat.zero_add] at collected
  have received := (resynchronises_collected index frame first segments).mpr collected
  rw [← receiver.emissions_snd 0, ← frameEnds_frames first.bytes.length, List.forall₂_map_left_iff,
    List.forall₂_map_right_iff]
  exact received.imp fun _ _ both => both.2

/-- A buffer holds a frame by its bytes. -/
theorem holds_of_bytes {ds : List FrameData} {frames frames' : List Frame}
    (held : List.Forall₂ FrameData.Holds ds frames)
    (same : frames.map Frame.bytes = frames'.map Frame.bytes) :
    List.Forall₂ FrameData.Holds ds frames' := by
  have bytes : List.Forall₂ (fun (d : FrameData) b => d.bytes = b) ds (frames.map Frame.bytes) :=
    List.forall₂_map_right_iff.mpr (held.imp fun d f => (d.holds_iff f).mp)
  rw [same, List.forall₂_map_right_iff] at bytes
  exact bytes.imp fun d f => (d.holds_iff f).mpr

/-! ## The display, packet by packet -/

theorem frameCalls_packet (image : List UInt8) (k : Nat) :
    frameCalls (packet image k) = packetCalls (UInt8.ofNat (packetCount image))
      (UInt8.ofNat (k + 1)) (Slices.slice maxImageDataLen image k) := rfl

/-- The display when the first `k` packets of an image have been sent. -/
def begun (d : Display) (image : List UInt8) (k : Nat) : Display :=
  if k = 0 then d else .sending (image.take (k * maxImageDataLen))

/-- The next part of an image shows nothing yet. -/
theorem display_part {image : List UInt8} (size : image.length = epdBufferSize) {k : Nat}
    (bounded : k + 1 < 256) (d : Display) :
    (begun d image k).calls ((if UInt8.ofNat (k + 1) = 1 then [DriverCall.initFast] else []) ++
      [.displayImageParagraph (Slices.slice maxImageDataLen image k) (UInt8.ofNat (k + 1))]) =
        some (begun d image (k + 1), []) := by
  have room : (image.take ((k + 1) * maxImageDataLen)).length ≤ epdBufferSize := by
    rw [List.length_take, size]
    exact Nat.min_le_right _ _
  have sent : Display.send (image.take ((k + 1) * maxImageDataLen)) =
      some (begun d image (k + 1), []) := if_pos room
  by_cases first : k = 0
  · subst first
    have part : Slices.slice maxImageDataLen image 0 = image.take (1 * maxImageDataLen) := by
      rw [Slices.slice, Nat.zero_mul, List.drop_zero, Nat.one_mul]
    have called : Display.on.call (.displayImageParagraph
        (Slices.slice maxImageDataLen image 0) 1) = some (begun d image (0 + 1), []) := by
      rw [Display.call, if_pos rfl, part]
      exact sent
    have woken : (begun d image 0).call .initFast = some (.on, []) := by
      cases d <;> rfl
    exact Display.calls_append (Display.calls_singleton woken)
      (Display.calls_singleton called)
  · have notFirst : UInt8.ofNat (k + 1) ≠ 1 :=
      (ofNat_ne_ofNat (Nat.succ_lt_succ (Nat.pos_of_ne_zero first)) bounded).symm
    have longer : image.take (k * maxImageDataLen) ++ Slices.slice maxImageDataLen image k =
        image.take ((k + 1) * maxImageDataLen) := by
      rw [Slices.slice, Nat.succ_mul, List.take_add]
    have called : (begun d image k).call (.displayImageParagraph
        (Slices.slice maxImageDataLen image k) (UInt8.ofNat (k + 1))) =
          some (begun d image (k + 1), []) := by
      rw [begun, if_neg first, Display.call, if_neg notFirst, longer, sent]
    rw [if_neg notFirst, List.nil_append]
    exact Display.calls_singleton called

/-- The first `k` packets of an image, before its last one. -/
theorem display_packets {image : List UInt8} (size : image.length = epdBufferSize)
    (few : packetCount image < 256) {k : Nat} (before : k < packetCount image) (d : Display) :
    d.calls ((List.range k).flatMap fun i => frameCalls (packet image i)) =
      some (begun d image k, []) := by
  induction k with
  | zero => rfl
  | succ k ih =>
      have notLast : UInt8.ofNat (k + 1) ≠ UInt8.ofNat (packetCount image) :=
        ofNat_ne_ofNat before few
      have calls : frameCalls (packet image k) =
          (if UInt8.ofNat (k + 1) = 1 then [DriverCall.initFast] else []) ++
            [.displayImageParagraph (Slices.slice maxImageDataLen image k)
              (UInt8.ofNat (k + 1))] := by
        rw [frameCalls_packet, packetCalls, if_neg notLast, List.append_nil]
      rw [List.range_succ, List.flatMap_append, List.flatMap_singleton, calls]
      exact Display.calls_append (ih (by omega)) (display_part size (by omega) d)

/-- **An image is shown once**, and the display sleeps behind it. -/
theorem display_image {image : List UInt8} (size : image.length = epdBufferSize) (d : Display) :
    d.calls ((imageFrames image).flatMap frameCalls) = some (.asleep, [image]) := by
  have count : packetCount image = 7 + 1 := by
    rw [packetCount, size]
    rfl
  have whole : image.take ((7 + 1) * maxImageDataLen) = image :=
    List.take_of_length_le (by rw [size]; decide)
  have split : (imageFrames image).flatMap frameCalls =
      ((List.range 7).flatMap fun i => frameCalls (packet image i)) ++
        (((if UInt8.ofNat (7 + 1) = 1 then [DriverCall.initFast] else []) ++
          [.displayImageParagraph (Slices.slice maxImageDataLen image 7)
            (UInt8.ofNat (7 + 1))]) ++ [.update, .sleep]) := by
    rw [imageFrames, List.flatMap_map, count, List.range_succ, List.flatMap_append,
      List.flatMap_singleton, frameCalls_packet, packetCalls, count, if_pos rfl]
  have shown : (begun d image (7 + 1)).calls [.update, .sleep] = some (.asleep, [image]) := by
    rw [begun, if_neg (by decide), whole, Display.calls, Display.call, if_pos size]
    rfl
  rw [split]
  exact Display.calls_append (display_packets size (by rw [count]; decide) (by omega) d)
    (Display.calls_append (display_part size (by decide) d) shown)

/-- Images one after the other. -/
theorem display_images {images : List (List UInt8)}
    (sizes : ∀ image ∈ images, image.length = epdBufferSize) (d : Display) :
    d.calls (images.flatMap fun image => (imageFrames image).flatMap frameCalls) =
      some (if images = [] then d else .asleep, images) := by
  induction images generalizing d with
  | nil => rfl
  | cons image rest ih =>
      obtain ⟨here, later⟩ := List.forall_mem_cons.mp sizes
      have rests := ih later .asleep
      rw [ite_self] at rests
      rw [List.flatMap_cons, if_neg (List.cons_ne_nil _ _)]
      exact Display.calls_append (display_image here d) rests

theorem carriesImage_packet {image : List UInt8} {k : Nat} (below : k < packetCount image) :
    CarriesImage (packet image k) := by
  have some : Slices.slice maxImageDataLen image k ≠ [] := by
    apply Slices.slice_ne_nil (by decide)
    simp only [packetCount] at below
    simp only [maxImageDataLen]
    omega
  have positive := List.length_pos_of_ne_nil some
  refine ⟨rfl, rfl, ?_⟩
  show 2 < (Slices.slice maxImageDataLen image k).length + 1 + 1
  omega

/-- A run in which the thread is in time has done what the frames of its bytes say. -/
theorem threadOps_frames {turns : List Turn} {s : HandOver}
    (run : Run turn ThreadInTime HandOver.init turns s) (waits : Waits s) {first : Noise}
    {segments : List (Frame × Noise)} (even : EvenGaps first segments)
    (received : receivedBytes turns = streamOf first segments) {frames : List Frame}
    (sent : segments.map (fun s => s.1.bytes) = frames.map Frame.bytes)
    (carry : ∀ f ∈ frames, CarriesImage f) :
    threadOps s = driverOps (frames.flatMap frameCalls) := by
  have bytes : (segments.map Prod.fst).map Frame.bytes = frames.map Frame.bytes :=
    (List.map_map ..).trans sent
  obtain ⟨-, announced⟩ := announced_received run
  rw [received] at announced
  have held := holds_of_bytes (announced_frames 0 FrameData.zero even) bytes
  rw [threadOps_eq run waits 0, announced]
  exact panelOps_frames held carry 0

/-- **Pictures arrive**: whatever noise with even gaps is between the frames, however the bytes
and the thread's reads interleave, and in whatever state the panel is, it shows the images that
were sent, each once and in their order, and sleeps behind the last one. -/
theorem pictures_arrive {σ : Type} {controller : Transducer σ ChipEvent (List UInt8)}
    (sheet : Datasheet controller) {images : List (List UInt8)}
    (sizes : ∀ image ∈ images, image.length = epdBufferSize) {first : Noise}
    {segments : List (Frame × Noise)}
    (sent : segments.map (fun s => s.1.bytes) = (images.flatMap imageFrames).map Frame.bytes)
    (even : EvenGaps first segments) {turns : List Turn} {s : HandOver}
    (run : Run turn ThreadInTime HandOver.init turns s)
    (received : receivedBytes turns = streamOf first segments) (waits : Waits s) {r : Receiver}
    {pins : Pins} (ready : Ready r pins) (c : σ) :
    Leads controller c (chip.trace (r, pins) (panelWires (threadOps s))) images
      fun c' => images ≠ [] → sheet.Asleep c' := by
  have carry : ∀ f ∈ images.flatMap imageFrames, CarriesImage f := by
    intro f member
    obtain ⟨image, -, isFrame⟩ := List.mem_flatMap.mp member
    obtain ⟨k, inside, rfl⟩ := List.mem_map.mp isFrame
    exact carriesImage_packet (List.mem_range.mp inside)
  have unknown : sheet.Presents .unknown c := trivial
  have shown := driver_refines sheet ready unknown (display_images sizes .unknown)
  rw [threadOps_frames run waits even received sent carry, List.flatMap_assoc]
  refine ⟨shown.1, fun some => ?_⟩
  have asleep := shown.2
  rwa [if_neg some] at asleep

/-! ## From the converter's file -/

/-- The converter's bytes of any image: its pixels as they are encoded. -/
theorem imageArrayToBytes_encoded (imageArray : List (List Rgb)) :
    ∃ cArray, imageArrayToBytes imageArray = some cArray ∧
      Spells cArray ((imageArray.flatten.length + 3) / 4)
        (packedDigit (imageArray.flatten.map encodedColor)) := by
  have pixels : [imageArray.flatten.map fun pixel => (encodedColor pixel).rgb].flatten =
      (imageArray.flatten.map encodedColor).map FourColor.rgb := by
    rw [List.flatten_singleton, List.map_map]
    rfl
  obtain ⟨cArray, packed, spells⟩ := imageArrayToBytes_spells pixels
  rw [List.length_map] at spells
  refine ⟨cArray, ?_, spells⟩
  rw [← packed]
  simp only [imageArrayToBytes, List.flatten_singleton, List.map_map, Function.comp_def,
    colorToBits_encodedColor]

/-- The packer's entries of some arrays. -/
theorem readImages_arrays (re : CharClasses) (arrays : List (List Char × List UInt8))
    (names : ∀ array ∈ arrays, array.1 ≠ [] ∧ ∀ c ∈ array.1, re.word c = true) :
    readImages re (arrays.flatMap fun array => cArrayText array.1 array.2) =
      some (arrays.map fun array => ⟨array.1, array.2.length, array.2.map UInt8.toNat⟩) := by
  have read := Reads.flatMap fun array member =>
    reads_array re (names array member).1 (names array member).2 array.2
  have found := read []
  rw [List.append_nil, findAll_nil, List.append_nil, ← List.map_eq_flatMap] at found
  simp only [readImages]
  rw [found, List.mapM_map]
  exact mapM_eq_map fun array _ => readImage_array re array.1 array.2

/-- The bytes shown are an image: every pixel, in reading order, as the code of the colour it
is encoded as. -/
def ShowsImage (image : List Char × List (List Rgb)) (shown : List UInt8) : Prop :=
  Spells shown ((image.2.flatten.length + 3) / 4) (packedDigit (image.2.flatten.map encodedColor))

/-- The frames on the air are those the packer makes of the entries of a file. -/
def SendsEntries (entries : List ImageEntry) (segments : List (Frame × Noise)) : Prop :=
  segments.map (fun s => s.1.bytes.map UInt8.toNat) =
    entries.flatMap fun entry => packImageToFrames entry.data

/-- **From the file to the glass**: the images the converter writes into a C file are read by
the packer, and when its frames are sent, with any noise of even gaps between them, to a thread
that is in time for them, a panel shows these images, each once and in the order of the file,
and sleeps behind the last one. -/
theorem file_to_glass {σ : Type} {controller : Transducer σ ChipEvent (List UInt8)}
    (sheet : Datasheet controller) (re : CharClasses)
    (images : List (List Char × List (List Rgb)))
    (names : ∀ image ∈ images, image.1 ≠ [] ∧ ∀ c ∈ image.1, re.word c = true)
    (sizes : ∀ image ∈ images, image.2.flatten.length = 4 * epdBufferSize) :
    ∃ cString entries, outputCString images = some cString ∧
      readImages re cString = some entries ∧
      (∃ segments, SendsEntries entries segments ∧ EvenGaps silence segments) ∧
      ∀ (first : Noise) (segments : List (Frame × Noise)), SendsEntries entries segments →
        EvenGaps first segments → ∀ (turns : List Turn) (s : HandOver),
        Run turn ThreadInTime HandOver.init turns s →
        receivedBytes turns = streamOf first segments → Waits s →
        ∀ (r : Receiver) (pins : Pins) (c : σ), Ready r pins →
          ∃ shown, List.Forall₂ ShowsImage images shown ∧
            Leads controller c (chip.trace (r, pins) (panelWires (threadOps s))) shown
              fun c' => images ≠ [] → sheet.Asleep c' := by
  choose packed packs spells using fun image : List Char × List (List Rgb) =>
    imageArrayToBytes_encoded image.2
  have texts : images.mapM (fun image => imageArrayToCArray image.2 image.1) =
      some (images.map fun image =>
        (cArrayText image.1 (packed image), (packed image).length)) := by
    refine mapM_eq_map ?_
    intro image _
    rw [imageArrayToCArray, packs image]
    rfl
  have entries := readImages_arrays re (images.map fun image => (image.1, packed image))
    (by
      intro array member
      obtain ⟨image, inFile, rfl⟩ := List.mem_map.mp member
      exact names image inFile)
  rw [List.flatMap_map, List.map_map] at entries
  have bounds : ∀ bytes ∈ images.map packed, bytes.length = epdBufferSize := by
    intro bytes member
    obtain ⟨image, inFile, rfl⟩ := List.mem_map.mp member
    rw [(spells image).length, sizes image inFile]
    rfl
  have frames : ((images.map packed).flatMap imageFrames).map (fun f =>
      f.bytes.map UInt8.toNat) =
        (images.map fun image => (packed image).map UInt8.toNat).flatMap packImageToFrames := by
    rw [List.flatMap_map, List.flatMap_map, List.map_flatMap]
    apply List.flatMap_congr
    intro image inFile
    refine (packImageToFrames_eq (packed image) ?_).symm
    rw [bounds _ (List.mem_map_of_mem inFile)]
    decide
  refine ⟨_, _, Option.map_eq_some_iff.mpr ⟨_, texts, List.flatMap_map _ _ _⟩, entries,
    ⟨((images.map packed).flatMap imageFrames).map fun f => (f, silence), ?_,
      evenGaps_silence _⟩, ?_⟩
  · rw [SendsEntries, List.map_map]
    refine frames.trans ?_
    rw [List.flatMap_map, List.flatMap_map]
    rfl
  · intro first segments sends even turns s run received waits r pins c ready
    have sent : segments.map (fun s => s.1.bytes) =
        ((images.map packed).flatMap imageFrames).map Frame.bytes := by
      have injective : Function.Injective (List.map UInt8.toNat) :=
        List.map_injective_iff.mpr fun a b => UInt8.toNat_inj.mp
      apply List.map_injective_iff.mpr injective
      rw [SendsEntries, List.flatMap_map] at sends
      rw [List.map_map, List.map_map]
      exact sends.trans ((List.flatMap_map _ _ _).symm.trans frames.symm)
    refine ⟨images.map packed, ?_, ?_⟩
    · exact List.forall₂_map_right_iff.mpr (List.forall₂_same.mpr fun image _ => spells image)
    · obtain ⟨shown, asleep⟩ := pictures_arrive sheet bounds sent even run received waits ready c
      exact ⟨shown, fun some => asleep fun none => some (List.map_eq_nil_iff.mp none)⟩

/-- A red image of the panel's size, and the one picture that is shown. -/
theorem file_to_glass_red :
    ∃ s : HandOver, ∃ picture, ShowsImage (['r'], [List.replicate 32000 ⟨255, 0, 0⟩]) picture ∧
      simpleController.trace ⟨false, false, 0, []⟩
        (chip.trace (⟨false, []⟩, ⟨false, false, true, false, false⟩)
          (panelWires (threadOps s))) = [picture] := by
  have names : ∀ image ∈ [(['r'], [List.replicate 32000 (⟨255, 0, 0⟩ : Rgb)])],
      image.1 ≠ [] ∧ ∀ c ∈ image.1, asciiClasses.word c = true := by
    rw [List.forall_mem_singleton]
    exact ⟨List.cons_ne_nil _ _, List.forall_mem_singleton.mpr rfl⟩
  have sizes : ∀ image ∈ [(['r'], [List.replicate 32000 (⟨255, 0, 0⟩ : Rgb)])],
      image.2.flatten.length = 4 * epdBufferSize := by
    rw [List.forall_mem_singleton, List.flatten_singleton]
    exact List.length_replicate
  obtain ⟨_, _, -, -, ⟨segments, sends, even⟩, shows⟩ :=
    file_to_glass simpleDatasheet asciiClasses _ names sizes
  obtain ⟨turns, s, run, received, waits⟩ := exists_inTime (streamOf silence segments)
  have ready : Ready ⟨false, []⟩ ⟨false, false, true, false, false⟩ := ⟨rfl, rfl⟩
  obtain ⟨shown, pictures, trace, -⟩ :=
    shows silence segments sends even turns s run received waits _ _ ⟨false, false, 0, []⟩ ready
  cases pictures with
  | cons red rest =>
      cases rest
      exact ⟨s, _, red, trace⟩

end EinkLiteOS.Tools
