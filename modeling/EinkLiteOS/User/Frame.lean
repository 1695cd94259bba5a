/-
# User.Frame -- the image transfer frame

The constants and types of `User/user.h`, and the frame the protocol describes
there and in `WIFI_UART_ISSUES.md`:

    A5 5A type command lenHigh lenLow payload crcHigh crcLow

`FrameData` is the receive buffer the interrupt fills; its fields
`total_packets` and `current_packet` are left out, since nothing reads or writes
them.  `Frame` is what a sender means: a payload of one to `maxDataLen` bytes,
by construction.  `frameVerdict` says of a byte string whether it may still
become a frame, is none, or is one with a matching checksum; it is the verdict
of the abstract receiver (`Theory.Collector`) that `User.RecData` refines.
-/
import EinkLiteOS.Theory.BigEndian
import EinkLiteOS.Theory.Collector
import EinkLiteOS.User.Crc16

namespace EinkLiteOS.User

open EinkLiteOS.Theory
open EinkLiteOS.Theory.BigEndian

set_option autoImplicit false

/-! ## `user.h` -/

def wifiEventRecv : UInt32 := 0x01

def frameHeader1 : UInt8 := 0xA5
def frameHeader2 : UInt8 := 0x5A

def cmdTypeImage : UInt8 := 0xD1
def cmdImageTransfer : UInt8 := 0x01

def maxDataLen : Nat := 1024

/-- `RecvState_t`.  A C enum variable can hold any integer, so the values that
are none of the nine states are kept: they are what the `default` arm is for. -/
inductive RecvState where
  | header1
  | header2
  | cmdType
  | cmd
  | lenHigh
  | lenLow
  | data
  | crcHigh
  | crcLow
  | other (raw : UInt32)
  deriving DecidableEq, Repr

/-- `FrameData_t`, the buffer shared by the interrupt and the WiFi thread. -/
structure FrameData where
  cmdType : UInt8
  cmd : UInt8
  dataLen : UInt16
  dataBuffer : Vector UInt8 maxDataLen
  crcReceived : UInt16
  deriving DecidableEq, Repr

namespace FrameData

/-- The global buffer before anything is received. -/
def zero : FrameData := ⟨0, 0, 0, Vector.replicate maxDataLen 0, 0⟩

/-- `data_buffer[0 .. data_len)`. -/
def payload (d : FrameData) : List UInt8 := d.dataBuffer.toList.take d.dataLen.toNat

/-- The bytes the checksum covers, as `recDataProcessing` copies them to `crc_data`. -/
def covered (d : FrameData) : List UInt8 :=
  d.cmdType :: d.cmd :: highByte d.dataLen :: lowByte d.dataLen :: d.payload

/-- The frame on the wire that the buffer's fields describe. -/
def bytes (d : FrameData) : List UInt8 :=
  frameHeader1 :: frameHeader2 :: (d.covered ++ [highByte d.crcReceived, lowByte d.crcReceived])

theorem payload_length {d : FrameData} (fits : d.dataLen.toNat ≤ maxDataLen) :
    d.payload.length = d.dataLen.toNat := by
  rw [payload, List.length_take, Vector.length_toList, Nat.min_eq_left fits]

end FrameData

/-! ## The frame of the protocol -/

/-- What a sender means by one frame. -/
structure Frame where
  cmdType : UInt8
  cmd : UInt8
  payload : List UInt8
  nonempty : 0 < payload.length
  fits : payload.length ≤ maxDataLen

namespace Frame

def dataLen (f : Frame) : UInt16 := UInt16.ofNat f.payload.length

/-- The bytes the checksum covers. -/
def covered (f : Frame) : List UInt8 :=
  f.cmdType :: f.cmd :: highByte f.dataLen :: lowByte f.dataLen :: f.payload

def crc (f : Frame) : UInt16 := crc16Calculate f.covered

/-- The frame on the wire. -/
def bytes (f : Frame) : List UInt8 :=
  frameHeader1 :: frameHeader2 :: (f.covered ++ [highByte f.crc, lowByte f.crc])

theorem toNat_dataLen (f : Frame) : f.dataLen.toNat = f.payload.length := by
  have := f.fits
  rw [dataLen, UInt16.toNat_ofNat', maxDataLen] at *
  omega

@[simp] theorem bytes_length (f : Frame) : f.bytes.length = f.payload.length + 8 := by
  simp [bytes, covered]

theorem bytes_ne_nil (f : Frame) : f.bytes ≠ [] := by simp [bytes]

end Frame

/-- The receive buffer holds a frame. -/
structure FrameData.Holds (d : FrameData) (f : Frame) : Prop where
  cmdType : d.cmdType = f.cmdType
  cmd : d.cmd = f.cmd
  dataLen : d.dataLen = f.dataLen
  payload : d.payload = f.payload
  crcReceived : d.crcReceived = f.crc

/-- The buffer holds a frame exactly when its fields describe that frame's bytes. -/
theorem FrameData.holds_iff (d : FrameData) (f : Frame) : d.Holds f ↔ d.bytes = f.bytes := by
  constructor
  · rintro ⟨t, c, len, p, crc⟩
    rw [FrameData.bytes, FrameData.covered, Frame.bytes, Frame.covered, t, c, len, p, crc]
  · intro same
    simp only [FrameData.bytes, FrameData.covered, Frame.bytes, Frame.covered, List.cons_append,
      List.cons.injEq, true_and] at same
    obtain ⟨t, c, hi, lo, body⟩ := same
    obtain ⟨p, crc⟩ := List.append_inj' body rfl
    simp only [List.cons.injEq, and_true] at crc
    refine ⟨t, c, ?_, p, ?_⟩
    · rw [← joinBytes_high_low d.dataLen, hi, lo, joinBytes_high_low]
    · rw [← joinBytes_high_low d.crcReceived, crc.1, crc.2, joinBytes_high_low]

/-- A byte string is a valid frame: header, type, command, big-endian length from
1 to `maxDataLen`, that many payload bytes, and their checksum high byte first. -/
def IsValidFrame (bytes : List UInt8) : Prop :=
  ∃ t c hi lo p q1 q2,
    bytes = frameHeader1 :: frameHeader2 :: t :: c :: hi :: lo :: (p ++ [q1, q2]) ∧
    1 ≤ hi.toNat * 256 + lo.toNat ∧ hi.toNat * 256 + lo.toNat ≤ maxDataLen ∧
    p.length = hi.toNat * 256 + lo.toNat ∧
    q1.toNat * 256 + q2.toNat = (crc16Calculate (t :: c :: hi :: lo :: p)).toNat

/-- The valid frames are exactly the encodings of a `Frame`. -/
theorem isValidFrame_iff (bytes : List UInt8) :
    IsValidFrame bytes ↔ ∃ f : Frame, f.bytes = bytes := by
  constructor
  · rintro ⟨t, c, hi, lo, p, q1, q2, rfl, positive, bounded, length, checksum⟩
    let f : Frame := ⟨t, c, p, by omega, by omega⟩
    have lenWord : f.dataLen = joinBytes hi lo := by
      apply UInt16.toNat_inj.mp
      rw [f.toNat_dataLen, toNat_joinBytes, ← length]
    have crcWord : f.crc = joinBytes q1 q2 := by
      apply UInt16.toNat_inj.mp
      rw [toNat_joinBytes, checksum, Frame.crc, Frame.covered, lenWord, highByte_joinBytes,
        lowByte_joinBytes]
    refine ⟨f, ?_⟩
    rw [Frame.bytes, Frame.covered, crcWord, lenWord]
    simp [f]
  · rintro ⟨f, rfl⟩
    have joined := congrArg UInt16.toNat (joinBytes_high_low f.dataLen)
    rw [toNat_joinBytes, f.toNat_dataLen] at joined
    refine ⟨f.cmdType, f.cmd, highByte f.dataLen, lowByte f.dataLen, f.payload,
      highByte f.crc, lowByte f.crc, rfl, ?_, ?_, joined.symm, ?_⟩
    · rw [joined]; exact f.nonempty
    · rw [joined]; exact f.fits
    · rw [← toNat_joinBytes, joinBytes_high_low]
      rfl

/-! ## The verdict on the bytes received so far -/

/-- May these bytes still become a frame, are they none, or are they one?  The
header is judged byte by byte, the length as soon as both its bytes are there,
the checksum on the last byte. -/
def frameVerdict : List UInt8 → Verdict
  | [] => .more
  | [h1] => if h1 = frameHeader1 then .more else .reject
  | [h1, h2] => if h1 = frameHeader1 ∧ h2 = frameHeader2 then .more else .reject
  | [_, _, _] => .more
  | [_, _, _, _] => .more
  | [_, _, _, _, _] => .more
  | h1 :: h2 :: t :: c :: hi :: lo :: rest =>
      let len := (joinBytes hi lo).toNat
      let crc := crc16Calculate (t :: c :: hi :: lo :: rest.take len)
      if h1 = frameHeader1 ∧ h2 = frameHeader2 ∧ 0 < len ∧ len ≤ maxDataLen then
        if rest.length < len + 2 then .more
        else if rest.drop len = [highByte crc, lowByte crc] then .accept
        else .reject
      else .reject

/-- The verdict once the length field is there. -/
theorem frameVerdict_body {t c : UInt8} {len : UInt16} (rest : List UInt8)
    (positive : 0 < len.toNat) (bounded : len.toNat ≤ maxDataLen) :
    frameVerdict (frameHeader1 :: frameHeader2 :: t :: c :: highByte len :: lowByte len :: rest) =
      if rest.length < len.toNat + 2 then .more
      else if rest.drop len.toNat =
          [highByte (crc16Calculate
              (t :: c :: highByte len :: lowByte len :: rest.take len.toNat)),
            lowByte (crc16Calculate
              (t :: c :: highByte len :: lowByte len :: rest.take len.toNat))] then .accept
      else .reject := by
  simp only [frameVerdict, joinBytes_high_low, positive, bounded, and_self, if_true]

/-- The verdict on a complete word with its length in order is the checksum comparison. -/
theorem frameVerdict_complete {t c : UInt8} {len : UInt16} {payload : List UInt8} (crc : UInt16)
    (length : payload.length = len.toNat) (positive : 0 < len.toNat)
    (bounded : len.toNat ≤ maxDataLen) :
    frameVerdict (frameHeader1 :: frameHeader2 :: t :: c :: highByte len :: lowByte len ::
        (payload ++ [highByte crc, lowByte crc])) =
      if crc = crc16Calculate (t :: c :: highByte len :: lowByte len :: payload) then .accept
      else .reject := by
  rw [frameVerdict_body _ positive bounded, if_neg (by simp [length]), ← length, List.take_left,
    List.drop_left]
  refine if_congr ⟨fun same => ?_, fun same => by rw [same]⟩ rfl rfl
  simp only [List.cons.injEq, and_true] at same
  rw [← joinBytes_high_low crc, same.1, same.2, joinBytes_high_low]

/-- A proper prefix of such a word may still become a frame. -/
theorem frameVerdict_prefix {t c : UInt8} {len : UInt16} {rest : List UInt8}
    (positive : 0 < len.toNat) (bounded : len.toNat ≤ maxDataLen) {n : Nat} (started : 0 < n)
    (proper : n < len.toNat + 8) :
    frameVerdict ((frameHeader1 :: frameHeader2 :: t :: c :: highByte len :: lowByte len ::
      rest).take n) = .more := by
  match n with
  | 1 | 2 | 3 | 4 | 5 => simp [frameVerdict]
  | n + 6 =>
      simp only [List.take_succ_cons]
      rw [frameVerdict_body _ positive bounded, if_pos]
      rw [List.length_take]
      omega

theorem Frame.bytes_eq (f : Frame) :
    f.bytes = frameHeader1 :: frameHeader2 :: f.cmdType :: f.cmd :: highByte f.dataLen ::
      lowByte f.dataLen :: (f.payload ++ [highByte f.crc, lowByte f.crc]) := by
  simp [Frame.bytes, Frame.covered]

theorem Frame.dataLen_positive (f : Frame) : 0 < f.dataLen.toNat := by
  rw [f.toNat_dataLen]
  exact f.nonempty

theorem Frame.dataLen_bounded (f : Frame) : f.dataLen.toNat ≤ maxDataLen := by
  rw [f.toNat_dataLen]
  exact f.fits

/-- Every proper prefix of a frame may still become a frame. -/
theorem frameVerdict_take (f : Frame) {n : Nat} (positive : 0 < n) (proper : n < f.bytes.length) :
    frameVerdict (f.bytes.take n) = .more := by
  rw [f.bytes_length, ← f.toNat_dataLen] at proper
  rw [f.bytes_eq]
  exact frameVerdict_prefix f.dataLen_positive f.dataLen_bounded positive proper

/-- A frame is accepted. -/
theorem frameVerdict_bytes (f : Frame) : frameVerdict f.bytes = .accept := by
  rw [f.bytes_eq, frameVerdict_complete f.crc f.toNat_dataLen.symm f.dataLen_positive
    f.dataLen_bounded]
  exact if_pos rfl

/-- What is accepted is a frame. -/
theorem frame_of_accept {w : List UInt8} (accepted : frameVerdict w = .accept) :
    ∃ f : Frame, f.bytes = w := by
  match w with
  | [] | [_] | [_, _] | [_, _, _] | [_, _, _, _] | [_, _, _, _, _] =>
      simp only [frameVerdict] at accepted
      try split at accepted
      all_goals cases accepted
  | h1 :: h2 :: t :: c :: hi :: lo :: rest =>
      simp only [frameVerdict] at accepted
      split at accepted
      · rename_i header
        obtain ⟨rfl, rfl, positive, bounded⟩ := header
        split at accepted
        · cases accepted
        · rename_i long
          split at accepted
          · rename_i checksum
            let len := (joinBytes hi lo).toNat
            let crc := crc16Calculate (t :: c :: hi :: lo :: rest.take len)
            have split : rest = rest.take len ++ [highByte crc, lowByte crc] := by
              rw [← checksum, List.take_append_drop]
            rw [← isValidFrame_iff]
            refine ⟨t, c, hi, lo, rest.take len, highByte crc, lowByte crc, ?_, ?_, ?_, ?_, ?_⟩
            · rw [← split]
            · rw [← toNat_joinBytes]; exact positive
            · rw [← toNat_joinBytes]; exact bounded
            · rw [List.length_take, ← toNat_joinBytes]; omega
            · rw [← toNat_joinBytes, joinBytes_high_low]
          · cases accepted
      · cases accepted

/-- Bytes that may still become a frame are fewer than a longest frame. -/
theorem more_length {w : List UInt8} (judged : frameVerdict w = .more) :
    w.length ≤ maxDataLen + 7 := by
  match w with
  | [] | [_] | [_, _] | [_, _, _] | [_, _, _, _] | [_, _, _, _, _] => simp [maxDataLen]
  | h1 :: h2 :: t :: c :: hi :: lo :: rest =>
      simp only [frameVerdict] at judged
      split at judged
      · rename_i header
        split at judged
        · simp only [List.length_cons]
          omega
        · split at judged <;> cases judged
      · cases judged

end EinkLiteOS.User
