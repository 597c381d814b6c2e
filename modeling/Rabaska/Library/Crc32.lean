import Rabaska.Library.Octets
import Rabaska.Library.ShiftRegister

/-! The reflected CRC-32 with the IEEE polynomial, one bit of the register at a time. -/

namespace Crc32

def polynomial : UInt32 := 0xEDB88320

def shift (register : UInt32) : UInt32 :=
  if register &&& 1 = 1 then (register >>> 1) ^^^ polynomial else register >>> 1

def absorb (register : UInt32) (byte : UInt8) : UInt32 :=
  shift^[8] (register ^^^ byte.toUInt32)

def checksum (bytes : Bytes) : UInt32 :=
  bytes.foldl absorb 0xFFFFFFFF ^^^ 0xFFFFFFFF

/-- The published check value, over the ASCII digits one to nine. -/
example : checksum [0x31, 0x32, 0x33, 0x34, 0x35, 0x36, 0x37, 0x38, 0x39] = 0xCBF43926 := by
  decide +kernel

/-! The bits of a byte string: its bytes in order, of each the least significant bit first. -/

def byteBits (byte : UInt8) : List Bool := (List.range 8).map byte.toNat.testBit

def bits (bytes : Bytes) : List Bool := bytes.flatMap byteBits

theorem getElem?_byteBits (byte : UInt8) (i : Nat) :
    (byteBits byte)[i]?.getD false = byte.toNat.testBit i := by
  by_cases inside : i < 8
  · simp [byteBits, inside]
  · have clear : byte.toNat.testBit i = false :=
      Nat.testBit_lt_two_pow (byte.toNat_lt.trans_le (Nat.pow_le_pow_right (by decide) (by omega)))
    rw [clear, List.getElem?_eq_none (by simp [byteBits]; omega)]
    rfl

theorem getElem?_bits (bytes : Bytes) (i : Nat) :
    (bits bytes)[i]?.getD false = (LittleEndian.decode bytes).testBit i := by
  induction bytes generalizing i with
  | nil => simp [bits, LittleEndian.decode]
  | cons byte rest ih =>
      have width : (byteBits byte).length = 8 := by simp [byteBits]
      have layout : (LittleEndian.decode (byte :: rest)) = 2 ^ 8 * LittleEndian.decode rest + byte.toNat := by
        simp only [LittleEndian.decode]
        omega
      rw [layout, Nat.testBit_two_pow_mul_add _ byte.toNat_lt, bits, List.flatMap_cons]
      split
      · rename_i inside
        rw [List.getElem?_append_left (by omega)]
        exact getElem?_byteBits byte i
      · rename_i beyond
        rw [List.getElem?_append_right (by omega), width]
        exact ih (i - 8)

/-! The checksum is what is left in a shift register. -/

theorem low_bit (register : UInt32) : register &&& 1 = 1 ↔ register.toBitVec.getLsbD 0 = true := by
  have low := @BitVec.and_one_eq_setWidth_ofBool_getLsbD 32 register.toBitVec
  rw [← UInt32.toBitVec_inj, UInt32.toBitVec_and]
  change register.toBitVec &&& 1#32 = 1#32 ↔ _
  rw [low]
  cases register.toBitVec.getLsbD 0 <;> decide

theorem shift_toBitVec (register : UInt32) :
    (shift register).toBitVec = ShiftRegister.shift polynomial.toBitVec register.toBitVec := by
  unfold shift ShiftRegister.shift
  simp only [low_bit]
  split <;> simp

theorem shift_iterate_toBitVec (count : Nat) (register : UInt32) : (shift^[count] register).toBitVec =
    (ShiftRegister.shift polynomial.toBitVec)^[count] register.toBitVec := by
  induction count generalizing register with
  | zero => rfl
  | succ count ih => rw [Function.iterate_succ_apply, ih, shift_toBitVec]; rfl

theorem absorb_toBitVec (register : UInt32) (byte : UInt8) : (absorb register byte).toBitVec =
    ShiftRegister.feed polynomial.toBitVec register.toBitVec (byteBits byte) := by
  have packed : byte.toUInt32.toBitVec = ShiftRegister.pack (byteBits byte) := by
    apply BitVec.eq_of_getLsbD_eq
    intro i bound
    rw [ShiftRegister.getLsbD_pack _ bound, getElem?_byteBits]
    simp [BitVec.getLsbD]
  have width : (byteBits byte).length = 8 := by simp [byteBits]
  rw [absorb, shift_iterate_toBitVec, UInt32.toBitVec_xor, packed,
    ShiftRegister.feed_eq _ (by omega), width]

theorem foldl_toBitVec (register : UInt32) (bytes : Bytes) : (bytes.foldl absorb register).toBitVec =
    ShiftRegister.feed polynomial.toBitVec register.toBitVec (bits bytes) := by
  induction bytes generalizing register with
  | nil => rfl
  | cons byte rest ih =>
      rw [List.foldl_cons, ih, absorb_toBitVec, ← ShiftRegister.feed_append]
      rfl

def checksummed (bytes : Bytes) : Bytes := bytes ++ LittleEndian.encode 4 (checksum bytes).toNat

theorem pack_encode (value : UInt32) :
    ShiftRegister.pack (bits (LittleEndian.encode 4 value.toNat)) = value.toBitVec := by
  apply BitVec.eq_of_getLsbD_eq
  intro i bound
  rw [ShiftRegister.getLsbD_pack _ bound, getElem?_bits, LittleEndian.decode_encode,
    Nat.mod_eq_of_lt (show value.toNat < 256 ^ 4 from value.toNat_lt)]
  rfl

theorem length_bits (bytes : Bytes) : (bits bytes).length = 8 * bytes.length := by
  simp [bits, byteBits, List.length_flatMap]
  omega

/-- Behind its own checksum the register holds the same, whatever the bytes. -/
theorem residue (bytes : Bytes) :
    ShiftRegister.feed polynomial.toBitVec (UInt32.toBitVec 0xFFFFFFFF) (bits (checksummed bytes)) =
      (ShiftRegister.shift polynomial.toBitVec)^[32] (UInt32.toBitVec 0xFFFFFFFF) := by
  have layout : bits (checksummed bytes) =
      bits bytes ++ bits (LittleEndian.encode 4 (checksum bytes).toNat) := List.flatMap_append
  have width : (bits (LittleEndian.encode 4 (checksum bytes).toNat)).length = 32 := by
    simp [length_bits]
  have reached := foldl_toBitVec 0xFFFFFFFF bytes
  rw [layout, ShiftRegister.feed_append, ← reached, ShiftRegister.feed_eq _ (by omega), width,
    pack_encode, checksum, UInt32.toBitVec_xor, ← BitVec.xor_assoc, BitVec.xor_self, BitVec.zero_xor]

/-- The byte strings differ, and only within so many bits in a row. -/
def Burst (width : Nat) (first second : Bytes) : Prop :=
  ∃ front burst other back, bits first = front ++ burst ++ back ∧
    bits second = front ++ other ++ back ∧ burst.length = other.length ∧ burst.length ≤ width ∧
    burst ≠ other

theorem burst_detected (first second : Bytes) :
    ¬Burst 32 (checksummed first) (checksummed second) := by
  rintro ⟨front, burst, other, back, before, after, sized, short, changed⟩
  have left := (residue first).trans (residue second).symm
  rw [before, after] at left
  exact changed (ShiftRegister.burst_eq (by decide) sized short left)

end Crc32
