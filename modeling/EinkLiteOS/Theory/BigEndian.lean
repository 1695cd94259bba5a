/-
# Theory.BigEndian -- a 16-bit word and its two bytes

A wire format that sends a 16-bit field high byte first assembles it with
`hi << 8` and `|= lo`, and takes it apart with `(w >> 8) & 0xFF` and `w & 0xFF`.
Both directions, and that they are inverse.
-/
import Mathlib.Data.Nat.Bitwise

namespace EinkLiteOS.Theory.BigEndian

set_option autoImplicit false

/-- The word of a high and a low byte. -/
def joinBytes (hi lo : UInt8) : UInt16 := hi.toUInt16 <<< 8 ||| lo.toUInt16

def highByte (w : UInt16) : UInt8 := (w >>> 8 &&& 0xFF).toUInt8

def lowByte (w : UInt16) : UInt8 := (w &&& 0xFF).toUInt8

theorem and_byteMask (n : Nat) : n &&& 255 = n % 256 := Nat.and_two_pow_sub_one_eq_mod n 8

@[simp] theorem toNat_joinBytes (hi lo : UInt8) :
    (joinBytes hi lo).toNat = hi.toNat * 256 + lo.toNat := by
  have hiBound := hi.toNat_lt
  have loBound := lo.toNat_lt
  have shifted : (hi.toUInt16 <<< 8 : UInt16).toNat = hi.toNat <<< 8 := by
    rw [UInt16.toNat_shiftLeft, UInt8.toNat_toUInt16]
    show hi.toNat <<< 8 % 2 ^ 16 = hi.toNat <<< 8
    rw [Nat.shiftLeft_eq]
    omega
  rw [joinBytes, UInt16.toNat_or, shifted, UInt8.toNat_toUInt16,
    ← Nat.shiftLeft_add_eq_or_of_lt loBound, Nat.shiftLeft_eq]

@[simp] theorem toNat_highByte (w : UInt16) : (highByte w).toNat = w.toNat / 256 := by
  have bound := w.toNat_lt
  have masked : (w >>> 8 &&& 0xFF : UInt16).toNat = w.toNat / 256 := by
    rw [UInt16.toNat_and, UInt16.toNat_shiftRight]
    show w.toNat >>> 8 &&& 255 = w.toNat / 256
    rw [and_byteMask, Nat.shiftRight_eq_div_pow]
    omega
  rw [highByte, UInt16.toNat_toUInt8, masked]
  omega

@[simp] theorem toNat_lowByte (w : UInt16) : (lowByte w).toNat = w.toNat % 256 := by
  have masked : (w &&& 0xFF : UInt16).toNat = w.toNat % 256 := by
    rw [UInt16.toNat_and]
    exact and_byteMask w.toNat
  rw [lowByte, UInt16.toNat_toUInt8, masked]
  omega

@[simp] theorem highByte_joinBytes (hi lo : UInt8) : highByte (joinBytes hi lo) = hi := by
  apply UInt8.toNat_inj.mp
  have := lo.toNat_lt
  rw [toNat_highByte, toNat_joinBytes]
  omega

@[simp] theorem lowByte_joinBytes (hi lo : UInt8) : lowByte (joinBytes hi lo) = lo := by
  apply UInt8.toNat_inj.mp
  have := lo.toNat_lt
  rw [toNat_lowByte, toNat_joinBytes]
  omega

@[simp] theorem joinBytes_high_low (w : UInt16) : joinBytes (highByte w) (lowByte w) = w := by
  apply UInt16.toNat_inj.mp
  rw [toNat_joinBytes, toNat_highByte, toNat_lowByte]
  omega

/-- A field whose high byte has arrived. -/
theorem shift_eq_joinBytes (hi : UInt8) : hi.toUInt16 <<< 8 = joinBytes hi 0 := by
  simp only [joinBytes]
  exact UInt16.or_zero.symm

/-- The low byte completes the field. -/
theorem joinBytes_or (hi lo : UInt8) : joinBytes hi 0 ||| lo.toUInt16 = joinBytes hi lo := by
  rw [← shift_eq_joinBytes, joinBytes]

theorem toBitVec_joinBytes (hi lo : UInt8) :
    (joinBytes hi lo).toBitVec = hi.toBitVec ++ lo.toBitVec := by
  apply BitVec.eq_of_toNat_eq
  rw [BitVec.toNat_append]
  show (joinBytes hi lo).toNat = hi.toNat <<< 8 ||| lo.toNat
  rw [toNat_joinBytes, ← Nat.shiftLeft_add_eq_or_of_lt lo.toNat_lt, Nat.shiftLeft_eq]

theorem joinBytes_xor (a b c d : UInt8) :
    joinBytes (a ^^^ b) (c ^^^ d) = joinBytes a c ^^^ joinBytes b d := by
  apply UInt16.toBitVec_inj.mp
  rw [UInt16.toBitVec_xor]
  simp only [toBitVec_joinBytes, UInt8.toBitVec_xor]
  exact BitVec.xor_append.symm

end EinkLiteOS.Theory.BigEndian
