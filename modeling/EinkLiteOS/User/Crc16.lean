/-
# User.Crc16 -- the frame checksum of the receiver

`CRC16_Calculate` of `User/ch32v30x_it.c`: the reflected CRC-16 with polynomial
`0xA001` and initial value `0xFFFF`, one bit at a time in a `uint16_t`.
-/
import Mathlib.Logic.Function.Iterate

namespace EinkLiteOS.User

set_option autoImplicit false

/-- The body of the inner loop. -/
def crcBit (crc : UInt16) : UInt16 :=
  if crc &&& 1 = 1 then (crc >>> 1) ^^^ 0xA001 else crc >>> 1

/-- The body of the outer loop: `crc ^= data[i]`, then eight inner rounds. -/
def crcByte (crc : UInt16) (data : UInt8) : UInt16 := crcBit^[8] (crc ^^^ data.toUInt16)

/-- `CRC16_Calculate(data, len)` on the bytes `data[0 .. len)`. -/
def crc16Calculate (data : List UInt8) : UInt16 := data.foldl crcByte 0xFFFF

end EinkLiteOS.User
