/-
# User.CrcDetection -- the corrupted frames the checksum rejects

A transmission error flips bits.  `flipBits` is the byte string with a set of its
bits flipped: bytes in order, least significant bit first, which is the order in
which `CRC16_Calculate` shifts them.

The checksum of `recDataProcessing` is linear in these bits, so whether a frame
with flipped type, command, payload and checksum bits still matches depends on
the flips alone: `residue_flipBits` says that the altered frame misses its
checksum by the sum of what the flips contribute, and after one register width of
further steps that sum is the `syndrome` of `Theory.ShiftRegister`, where the rank of a
bit is how many steps follow it.  The two checksum bytes come high byte first, so
their ranks are swapped.

`corrupted_rejected` is the result: bursts of at most 16 bit positions in the
covered bytes, one flip, two flips and any odd number of flips are rejected, for
every frame.
-/
import EinkLiteOS.Theory.ShiftRegister
import EinkLiteOS.User.Resync

namespace EinkLiteOS.User

open EinkLiteOS.Theory
open EinkLiteOS.Theory.BigEndian
open EinkLiteOS.Theory.ShiftRegister

set_option autoImplicit false

/-! ## Flipped bits -/

/-- The byte with only bit `j` set. -/
def bitMask (j : Nat) : UInt8 := ⟨BitVec.twoPow 8 j⟩

/-- What a set of bit positions flips in byte `k`: position `8 * k + j` is its bit `j`. -/
def flipMask (flips : Finset Nat) (k : Nat) : UInt8 :=
  ⟨gather (fun p => (bitMask (p % 8)).toBitVec) (flips.filter fun p => p / 8 = k)⟩

/-- A byte string with a set of its bits flipped. -/
def flipBits (flips : Finset Nat) (bytes : List UInt8) : List UInt8 :=
  bytes.mapIdx fun k b => b ^^^ flipMask flips k

/-- Bit 1 of byte 2 and bit 7 of byte 0. -/
example : flipBits {17, 7} [0, 0xFF, 0x0F] = [0x80, 0xFF, 0x0D] := by decide

/-- The flips stay in the type, command, payload and checksum bytes of a frame: its header
(bytes 0 and 1) and its length field (bytes 4 and 5) are intact. -/
def Confined (f : Frame) (flips : Finset Nat) : Prop :=
  ∀ p ∈ flips, p / 8 = 2 ∨ p / 8 = 3 ∨ 6 ≤ p / 8 ∧ p / 8 < f.bytes.length

/-- The flips span at most 16 consecutive bit positions, all before the checksum. -/
def Burst (f : Frame) (flips : Finset Nat) : Prop :=
  (∀ p ∈ flips, p / 8 < f.bytes.length - 2) ∧ ∃ first, ∀ p ∈ flips, first ≤ p ∧ p < first + 16

/-! ## The checksum is linear -/

/-- `CRC16_Calculate`'s polynomial. -/
def crcTaps : BitVec 16 := 0xA001#16

/-- The inner loop steps the register. -/
theorem toBitVec_crcBit (crc : UInt16) : (crcBit crc).toBitVec = step crcTaps crc.toBitVec := by
  have low : crc &&& 1 = 1 ↔ crc.toBitVec.getLsbD 0 = true := by
    rw [← UInt16.toBitVec_inj, UInt16.toBitVec_and]
    show crc.toBitVec &&& 1#16 = 1#16 ↔ _
    rw [← BitVec.twoPow_zero, BitVec.and_twoPow]
    cases crc.toBitVec.getLsbD 0 <;> decide
  simp only [crcBit, step]
  rw [apply_ite UInt16.toBitVec]
  exact if_congr low rfl rfl

theorem toBitVec_iterate_crcBit (n : Nat) (crc : UInt16) :
    (crcBit^[n] crc).toBitVec = (step crcTaps)^[n] crc.toBitVec := by
  induction n generalizing crc with
  | zero => rfl
  | succ n ih => rw [Function.iterate_succ_apply, ih, toBitVec_crcBit, Function.iterate_succ_apply]

theorem toBitVec_crcByte (crc : UInt16) (data : UInt8) :
    (crcByte crc data).toBitVec =
      (step crcTaps)^[8] (crc.toBitVec ^^^ data.toUInt16.toBitVec) := by
  rw [crcByte, toBitVec_iterate_crcBit, UInt16.toBitVec_xor]

/-- What is in the register before some bytes comes out of them as so many steps. -/
theorem foldl_crcByte_xor (data : List UInt8) (s t d : UInt16)
    (start : t.toBitVec = s.toBitVec ^^^ d.toBitVec) :
    (data.foldl crcByte t).toBitVec =
      (data.foldl crcByte s).toBitVec ^^^ (step crcTaps)^[8 * data.length] d.toBitVec := by
  induction data generalizing s t d with
  | nil => exact start
  | cons b rest ih =>
      have stepped : (crcByte t b).toBitVec =
          (crcByte s b).toBitVec ^^^ (crcBit^[8] d).toBitVec := by
        rw [toBitVec_crcByte, toBitVec_crcByte, toBitVec_iterate_crcBit, start, ← iterate_xor]
        congr 1
        rw [BitVec.xor_assoc, BitVec.xor_comm d.toBitVec, BitVec.xor_assoc]
      rw [List.foldl_cons, List.foldl_cons, ih _ _ _ stepped, toBitVec_iterate_crcBit,
        ← Function.iterate_add_apply]
      rfl

/-- **One changed byte** changes the checksum by its mask, stepped to the end. -/
theorem foldl_crcByte_modify (data : List UInt8) (s : UInt16) {k : Nat} (inside : k < data.length)
    (mask : UInt8) :
    ((data.modify k (· ^^^ mask)).foldl crcByte s).toBitVec =
      (data.foldl crcByte s).toBitVec ^^^
        (step crcTaps)^[8 * (data.length - k)] mask.toUInt16.toBitVec := by
  induction data generalizing s k with
  | nil => cases inside
  | cons b rest ih =>
      cases k with
      | zero =>
          have stepped : (crcByte s (b ^^^ mask)).toBitVec =
              (crcByte s b).toBitVec ^^^ (crcBit^[8] mask.toUInt16).toBitVec := by
            rw [toBitVec_crcByte, toBitVec_crcByte, toBitVec_iterate_crcBit, ← iterate_xor,
              UInt8.toUInt16_xor, UInt16.toBitVec_xor, BitVec.xor_assoc]
          rw [List.modify_zero_cons, List.foldl_cons, List.foldl_cons,
            foldl_crcByte_xor rest _ _ _ stepped, toBitVec_iterate_crcBit,
            ← Function.iterate_add_apply]
          rfl
      | succ k =>
          rw [List.length_cons] at inside
          rw [List.modify_succ_cons, List.foldl_cons, List.foldl_cons, ih _ (by omega),
            List.length_cons, Nat.add_sub_add_right]

/-! ## By how much a byte string misses its checksum -/

/-- The checksum of the bytes a frame with `n` payload bytes covers, and the word in its
last two bytes: their difference. -/
def residue (n : Nat) (bytes : List UInt8) : BitVec 16 :=
  (crc16Calculate ((bytes.drop 2).take (n + 4)) ^^^
    joinBytes (bytes.getD (n + 6) 0) (bytes.getD (n + 7) 0)).toBitVec

/-- What a flip of bit `p` adds to it: in a covered byte its bit stepped to the end of
them, in the checksum the bit itself. -/
def contribution (n p : Nat) : BitVec 16 :=
  if p < 8 * (n + 6) then (step crcTaps)^[8 * (n + 6) - p] 1#16
  else if p < 8 * (n + 7) then BitVec.twoPow 16 (8 + p % 8)
  else BitVec.twoPow 16 (p % 8)

theorem toUInt16_bitMask {j : Nat} (inside : j < 8) :
    (bitMask j).toUInt16.toBitVec = BitVec.twoPow 16 j := by
  revert j
  decide

theorem joinBytes_bitMask_high {j : Nat} (inside : j < 8) :
    (joinBytes (bitMask j) 0).toBitVec = BitVec.twoPow 16 (8 + j) := by
  revert j
  decide

theorem joinBytes_bitMask_low {j : Nat} (inside : j < 8) :
    (joinBytes 0 (bitMask j)).toBitVec = BitVec.twoPow 16 j := by
  revert j
  decide

/-- One flip adds its contribution. -/
theorem residue_modify {n p : Nat} {bytes : List UInt8} (length : bytes.length = n + 8)
    (covered : 2 ≤ p / 8) (inside : p / 8 < n + 8) :
    residue n (bytes.modify (p / 8) (· ^^^ bitMask (p % 8))) =
      residue n bytes ^^^ contribution n p := by
  have bit : p % 8 < 8 := Nat.mod_lt p (by decide)
  have summed : ((bytes.drop 2).take (n + 4)).length = n + 4 := by
    rw [List.length_take, List.length_drop, length]
    omega
  simp only [residue, contribution]
  rw [List.drop_modify_of_ge _ _ _ _ covered, List.take_modify]
  simp only [List.getD_eq_getElem?_getD, UInt16.toBitVec_xor]
  by_cases data : p < 8 * (n + 6)
  · -- a covered byte: the checksum word stays
    rw [if_pos data, List.getElem?_modify_ne _ _ (by omega), List.getElem?_modify_ne _ _ (by omega),
      crc16Calculate, crc16Calculate, foldl_crcByte_modify _ _ (by omega), toUInt16_bitMask bit,
      iterate_twoPow_of_le crcTaps (by omega) (by omega), summed]
    have steps : 8 * (n + 4 - (p / 8 - 2)) - p % 8 = 8 * (n + 6) - p := by omega
    rw [steps, BitVec.xor_assoc, BitVec.xor_comm ((step crcTaps)^[_] _), ← BitVec.xor_assoc]
  · rw [if_neg data, List.modify_eq_self (by omega), BitVec.xor_assoc]
    congr 1
    by_cases high : p < 8 * (n + 7)
    · have here : p / 8 = n + 6 := by omega
      rw [if_pos high, here, List.getElem?_modify_eq, List.getElem?_modify_ne _ _ (by omega),
        ← joinBytes_bitMask_high bit, ← UInt16.toBitVec_xor, ← joinBytes_xor, UInt8.xor_zero,
        List.getElem?_eq_getElem (by omega : n + 6 < bytes.length)]
      rfl
    · have here : p / 8 = n + 7 := by omega
      rw [if_neg high, here, List.getElem?_modify_eq, List.getElem?_modify_ne _ _ (by omega),
        ← joinBytes_bitMask_low bit, ← UInt16.toBitVec_xor, ← joinBytes_xor, UInt8.xor_zero,
        List.getElem?_eq_getElem (by omega : n + 7 < bytes.length)]
      rfl

/-! ## The residue of an altered frame -/

theorem flipMask_empty (k : Nat) : flipMask ∅ k = 0 := rfl

theorem flipMask_insert {p : Nat} {flips : Finset Nat} (fresh : p ∉ flips) (k : Nat) :
    flipMask (insert p flips) k =
      if p / 8 = k then flipMask flips k ^^^ bitMask (p % 8) else flipMask flips k := by
  apply UInt8.toBitVec_inj.mp
  simp only [flipMask]
  rw [Finset.filter_insert]
  by_cases here : p / 8 = k
  · rw [if_pos here, if_pos here, gather_insert _ (by simp [fresh]), BitVec.xor_comm]
    rfl
  · rw [if_neg here, if_neg here]

@[simp] theorem length_flipBits (flips : Finset Nat) (bytes : List UInt8) :
    (flipBits flips bytes).length = bytes.length := List.length_mapIdx

theorem flipBits_empty (bytes : List UInt8) : flipBits ∅ bytes = bytes := by
  apply List.ext_getElem
  · exact length_flipBits ∅ bytes
  · intro k _ _
    simp [flipBits, flipMask_empty]

/-- One more flip changes one more bit. -/
theorem flipBits_insert {p : Nat} {flips : Finset Nat} (fresh : p ∉ flips) (bytes : List UInt8) :
    flipBits (insert p flips) bytes =
      (flipBits flips bytes).modify (p / 8) (· ^^^ bitMask (p % 8)) := by
  apply List.ext_getElem
  · simp
  · intro k _ _
    simp only [flipBits, List.getElem_modify, List.getElem_mapIdx, flipMask_insert fresh]
    by_cases here : p / 8 = k
    · rw [if_pos here, if_pos here, UInt8.xor_assoc]
    · rw [if_neg here, if_neg here]

/-- **What the flips add to the residue depends on the flips alone.** -/
theorem residue_flipBits {n : Nat} {bytes : List UInt8} (length : bytes.length = n + 8)
    (flips : Finset Nat) (inside : ∀ p ∈ flips, 2 ≤ p / 8 ∧ p / 8 < n + 8) :
    residue n (flipBits flips bytes) = residue n bytes ^^^ gather (contribution n) flips := by
  induction flips using Finset.induction_on with
  | empty => rw [flipBits_empty, gather_empty, BitVec.xor_zero]
  | insert p rest fresh ih =>
      obtain ⟨covered, before⟩ := inside p (Finset.mem_insert_self p rest)
      rw [flipBits_insert fresh, residue_modify (by rw [length_flipBits, length]) covered before,
        ih fun q member => inside q (Finset.mem_insert_of_mem member), gather_insert _ fresh,
        BitVec.xor_assoc, BitVec.xor_comm (gather _ _)]

/-- The residue of a complete word, read off its parts. -/
theorem residue_word {a b t c hi lo q1 q2 : UInt8} (payload : List UInt8) :
    residue payload.length (a :: b :: t :: c :: hi :: lo :: (payload ++ [q1, q2])) =
      (crc16Calculate (t :: c :: hi :: lo :: payload) ^^^ joinBytes q1 q2).toBitVec := by
  simp only [residue]
  simp

/-- A frame meets its checksum. -/
theorem residue_bytes (f : Frame) : residue f.payload.length f.bytes = 0#16 := by
  rw [f.bytes_eq, residue_word, joinBytes_high_low, UInt16.toBitVec_xor]
  exact BitVec.xor_self

/-! ## Flips that are noticed -/

/-- How many steps follow bit `p` until both checksum bytes are shifted through the
register, the low one first. -/
def rank (n p : Nat) : Nat :=
  if p < 8 * (n + 6) then 8 * (n + 8) - p
  else if p < 8 * (n + 7) then 8 * (n + 7) - p
  else 8 * (n + 9) - p

theorem iterate_contribution {n p : Nat} (inside : p < 8 * (n + 8)) :
    (step crcTaps)^[16] (contribution n p) = (step crcTaps)^[rank n p] 1#16 := by
  simp only [contribution, rank]
  by_cases data : p < 8 * (n + 6)
  · have steps : 16 + (8 * (n + 6) - p) = 8 * (n + 8) - p := by omega
    rw [if_pos data, if_pos data, ← Function.iterate_add_apply, steps]
  · rw [if_neg data, if_neg data]
    by_cases high : p < 8 * (n + 7)
    · have steps : 16 - (8 + p % 8) = 8 * (n + 7) - p := by omega
      rw [if_pos high, if_pos high, iterate_twoPow_of_le crcTaps (by omega) (by omega), steps]
    · have steps : 16 - p % 8 = 8 * (n + 9) - p := by omega
      rw [if_neg high, if_neg high, iterate_twoPow_of_le crcTaps (by omega) (by omega), steps]

theorem rank_injOn {n : Nat} {flips : Finset Nat} (inside : ∀ p ∈ flips, p < 8 * (n + 8)) :
    Set.InjOn (rank n) flips := by
  intro p inP q inQ same
  have := inside p inP
  have := inside q inQ
  simp only [rank] at same
  split_ifs at same <;> omega

theorem rank_le {n p : Nat} (bounded : n ≤ maxDataLen) (covered : 2 ≤ p / 8)
    (inside : p < 8 * (n + 8)) : rank n p ≤ 8240 := by
  simp only [maxDataLen] at bounded
  simp only [rank]
  split_ifs <;> omega

theorem crcTaps_top : crcTaps.msb = true := by decide

theorem crcTaps_odd : parity crcTaps = 1 := by decide

/-- The register started at 1 is not back at 1 within the longest frame. -/
theorem crcTaps_clear : clearOf crcTaps 8240 1#16 = true := by decide +kernel

/-- The patterns of flips the checksum is relied on to notice. -/
def Detectable (f : Frame) (flips : Finset Nat) : Prop :=
  Burst f flips ∨ flips.card = 1 ∨ flips.card = 2 ∨ Odd flips.card

theorem Confined.inside {f : Frame} {flips : Finset Nat} (confined : Confined f flips) :
    ∀ p ∈ flips, 2 ≤ p / 8 ∧ p / 8 < f.payload.length + 8 := by
  intro p member
  have place := confined p member
  have fits := f.nonempty
  rw [f.bytes_length] at place
  omega

/-- **Detectable flips do not add up to nothing.** -/
theorem syndrome_ne_zero {f : Frame} {flips : Finset Nat} (nonempty : flips.Nonempty)
    (confined : Confined f flips) (pattern : Detectable f flips) :
    syndrome crcTaps (rank f.payload.length) flips ≠ 0#16 := by
  have within : ∀ p ∈ flips, p < 8 * (f.payload.length + 8) := by
    intro p member
    have := confined.inside p member
    omega
  have apart := rank_injOn within
  rcases pattern with ⟨data, first, span⟩ | single | pair | odd
  · have window : ∀ p ∈ flips, 8 * (f.payload.length + 8) - first - 15 ≤ rank f.payload.length p ∧
        rank f.payload.length p < 8 * (f.payload.length + 8) - first - 15 + 16 := by
      intro p member
      have before := data p member
      have near := span p member
      rw [f.bytes_length] at before
      rw [rank, if_pos (by omega)]
      omega
    exact syndrome_ne_zero_of_burst crcTaps_top apart window nonempty
  · exact syndrome_ne_zero_of_odd crcTaps_odd (by decide) (single ▸ odd_one)
  · have ranks : ∀ p ∈ flips, rank f.payload.length p ≤ 8240 := by
      intro p member
      exact rank_le f.fits (confined.inside p member).1 (within p member)
    exact syndrome_ne_zero_of_pair crcTaps_top crcTaps_clear apart ranks pair
  · exact syndrome_ne_zero_of_odd crcTaps_odd (by decide) odd

/-- An altered frame misses its checksum. -/
theorem residue_ne_zero {f : Frame} {flips : Finset Nat} (nonempty : flips.Nonempty)
    (confined : Confined f flips) (pattern : Detectable f flips) :
    residue f.payload.length (flipBits flips f.bytes) ≠ 0#16 := by
  rw [residue_flipBits f.bytes_length flips confined.inside, residue_bytes, BitVec.zero_xor]
  intro unnoticed
  have gathered : (step crcTaps)^[16] (gather (contribution f.payload.length) flips) =
      syndrome crcTaps (rank f.payload.length) flips := by
    apply iterate_gather
    intro p member
    have := confined.inside p member
    exact iterate_contribution (by omega)
  rw [unnoticed, iterate_zero] at gathered
  exact syndrome_ne_zero nonempty confined pattern gathered.symm

/-! ## The receiver -/

theorem flipMask_eq_zero {flips : Finset Nat} {k : Nat} (intact : ∀ p ∈ flips, p / 8 ≠ k) :
    flipMask flips k = 0 := by
  simp only [flipMask]
  rw [Finset.filter_eq_empty_iff.mpr fun p member => intact p member]
  rfl

/-- An altered frame keeps its header and its length. -/
theorem flipBits_bytes {f : Frame} {flips : Finset Nat} (confined : Confined f flips) :
    ∃ (t c : UInt8) (payload : List UInt8) (q1 q2 : UInt8),
      payload.length = f.payload.length ∧
        flipBits flips f.bytes = frameHeader1 :: frameHeader2 :: t :: c :: highByte f.dataLen ::
          lowByte f.dataLen :: (payload ++ [q1, q2]) := by
  have intact : ∀ k, k < 2 ∨ k = 4 ∨ k = 5 → flipMask flips k = 0 := by
    intro k kept
    apply flipMask_eq_zero
    intro p member same
    have := confined p member
    omega
  refine ⟨f.cmdType ^^^ flipMask flips 2, f.cmd ^^^ flipMask flips 3,
    f.payload.mapIdx fun i b => b ^^^ flipMask flips (i + 6),
    highByte f.crc ^^^ flipMask flips (f.payload.length + 6),
    lowByte f.crc ^^^ flipMask flips (f.payload.length + 7), List.length_mapIdx, ?_⟩
  have last : 1 + f.payload.length + 1 + 1 + 1 + 1 + 1 + 1 = f.payload.length + 7 := by omega
  rw [f.bytes_eq]
  simp [flipBits, List.mapIdx_cons, List.mapIdx_append, intact, last]

/-- The altered frame's proper prefixes may still become a frame; the whole is none. -/
theorem frameVerdict_flipBits {f : Frame} {flips : Finset Nat} (nonempty : flips.Nonempty)
    (confined : Confined f flips) (pattern : Detectable f flips) :
    (∀ n, 0 < n → n < (flipBits flips f.bytes).length →
      frameVerdict ((flipBits flips f.bytes).take n) = .more) ∧
      frameVerdict (flipBits flips f.bytes) = .reject := by
  have missed := residue_ne_zero nonempty confined pattern
  obtain ⟨t, c, payload, q1, q2, length, shape⟩ := flipBits_bytes confined
  rw [← length, shape, residue_word] at missed
  constructor
  · intro n started proper
    rw [length_flipBits, f.bytes_length, ← f.toNat_dataLen] at proper
    rw [shape]
    exact frameVerdict_prefix f.dataLen_positive f.dataLen_bounded started proper
  · have complete := frameVerdict_complete (t := t) (c := c) (joinBytes q1 q2)
      (length.trans f.toNat_dataLen.symm) f.dataLen_positive f.dataLen_bounded
    rw [highByte_joinBytes, lowByte_joinBytes] at complete
    rw [shape, complete, if_neg]
    intro same
    rw [← same, UInt16.xor_self] at missed
    exact missed rfl

/-- **Corrupted frames are rejected.**  A frame of any length whose type, command,
payload and checksum bits are flipped in one of the detectable patterns, read from
`RECV_STATE_HEADER1` with any leftovers in the variables: no byte of it writes an event,
and after its last byte the receiver is in `RECV_STATE_HEADER1` again. -/
theorem corrupted_rejected (index : UInt16) (buffer : FrameData) (f : Frame)
    (flips : Finset Nat) (nonempty : flips.Nonempty) (confined : Confined f flips)
    (pattern : Detectable f flips) :
    receiver.emissions 0 ⟨.header1, index, buffer⟩ (flipBits flips f.bytes) = [] ∧
      (receiver.final ⟨.header1, index, buffer⟩ (flipBits flips f.bytes)).recState = .header1 := by
  have sound := idle_sound index buffer
  have idle : inProgress ⟨.header1, index, buffer⟩ = [] := rfl
  obtain ⟨growing, rejected⟩ := frameVerdict_flipBits nonempty confined pattern
  have bytes : flipBits flips f.bytes ≠ [] := by
    apply List.ne_nil_of_length_pos
    rw [length_flipBits, f.bytes_length]
    omega
  obtain ⟨back, silent⟩ := Collector.collect_rejected 0 bytes growing rejected
  obtain ⟨stillSound, held⟩ := receiver_final sound (flipBits flips f.bytes)
  have announcedNone := receiver_emissions sound 0 (flipBits flips f.bytes)
  rw [idle] at held announcedNone
  rw [silent] at announcedNone
  rw [back] at held
  exact ⟨List.map_eq_nil_iff.mp announcedNone.symm, (inProgress_eq_nil stillSound).mp held.symm⟩

/-- A one-byte frame with a burst over its type and command bytes, with a payload bit
and a checksum bit flipped, and with three flips far apart. -/
theorem corrupted_rejected_oneByte :
    (receiver.emissions 0 Recv.reset (flipBits {17, 20, 31} oneByteFrame.bytes) = [] ∧
      (receiver.final Recv.reset (flipBits {17, 20, 31} oneByteFrame.bytes)).recState = .header1) ∧
    (receiver.emissions 0 Recv.reset (flipBits {48, 71} oneByteFrame.bytes) = [] ∧
      (receiver.final Recv.reset (flipBits {48, 71} oneByteFrame.bytes)).recState = .header1) ∧
    (receiver.emissions 0 Recv.reset (flipBits {16, 50, 60} oneByteFrame.bytes) = [] ∧
      (receiver.final Recv.reset (flipBits {16, 50, 60} oneByteFrame.bytes)).recState =
        .header1) :=
  ⟨corrupted_rejected 0 FrameData.zero oneByteFrame {17, 20, 31} (by decide)
      (by simp only [Confined]; decide) (Or.inl ⟨by decide, 16, by decide⟩),
    corrupted_rejected 0 FrameData.zero oneByteFrame {48, 71} (by decide)
      (by simp only [Confined]; decide) (Or.inr (Or.inr (Or.inl (by decide)))),
    corrupted_rejected 0 FrameData.zero oneByteFrame {16, 50, 60} (by decide)
      (by simp only [Confined]; decide) (Or.inr (Or.inr (Or.inr (by decide))))⟩

end EinkLiteOS.User
