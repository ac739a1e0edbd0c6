import Mathlib

/-!
This module contains the little-endian reading of 16 and 32 bit words from single bytes, and the
bytes such words are stored as.
-/

namespace LittleEndian

def byte (x : Nat) (k : Nat) : UInt8 :=
  UInt8.ofNat (x / 2 ^ (8 * k))

def toUInt16 (b0 b1 : UInt8) : UInt16 :=
  UInt16.ofNat (b0.toNat + 2 ^ 8 * b1.toNat)

def toUInt32 (b0 b1 b2 b3 : UInt8) : UInt32 :=
  UInt32.ofNat (b0.toNat + 2 ^ 8 * b1.toNat + 2 ^ 16 * b2.toNat + 2 ^ 24 * b3.toNat)

theorem toNat_byte (x : Nat) (k : Nat) : (byte x k).toNat = x / 2 ^ (8 * k) % 2 ^ 8 := by
  simp [byte]

theorem toNat_toUInt16 (b0 b1 : UInt8)
    : (toUInt16 b0 b1).toNat = b0.toNat + 2 ^ 8 * b1.toNat := by
  have h0 := b0.toNat_lt
  have h1 := b1.toNat_lt
  unfold toUInt16
  rw [UInt16.toNat_ofNat']
  omega

theorem toNat_toUInt32 (b0 b1 b2 b3 : UInt8)
    : (toUInt32 b0 b1 b2 b3).toNat
        =
      b0.toNat + 2 ^ 8 * b1.toNat + 2 ^ 16 * b2.toNat + 2 ^ 24 * b3.toNat := by
  have h0 := b0.toNat_lt
  have h1 := b1.toNat_lt
  have h2 := b2.toNat_lt
  have h3 := b3.toNat_lt
  unfold toUInt32
  rw [UInt32.toNat_ofNat']
  omega

@[simp]
theorem toUInt16_byte (x : UInt16) : toUInt16 (byte x.toNat 0) (byte x.toNat 1) = x := by
  apply UInt16.toNat_inj.mp
  have := x.toNat_lt
  rw [toNat_toUInt16]
  simp only [toNat_byte]
  omega

@[simp]
theorem toUInt32_byte (x : UInt32)
    : toUInt32 (byte x.toNat 0) (byte x.toNat 1) (byte x.toNat 2) (byte x.toNat 3) = x := by
  apply UInt32.toNat_inj.mp
  have := x.toNat_lt
  rw [toNat_toUInt32]
  simp only [toNat_byte]
  omega

section

variable (b0 b1 b2 b3 : UInt8)

@[simp]
theorem byte_toUInt16_zero : byte (toUInt16 b0 b1).toNat 0 = b0 := by
  apply UInt8.toNat_inj.mp
  have := b0.toNat_lt
  rw [toNat_byte, toNat_toUInt16]
  omega

@[simp]
theorem byte_toUInt16_one : byte (toUInt16 b0 b1).toNat 1 = b1 := by
  apply UInt8.toNat_inj.mp
  have := b0.toNat_lt
  have := b1.toNat_lt
  rw [toNat_byte, toNat_toUInt16]
  omega

@[simp]
theorem byte_toUInt32_zero : byte (toUInt32 b0 b1 b2 b3).toNat 0 = b0 := by
  apply UInt8.toNat_inj.mp
  have := b0.toNat_lt
  rw [toNat_byte, toNat_toUInt32]
  omega

@[simp]
theorem byte_toUInt32_one : byte (toUInt32 b0 b1 b2 b3).toNat 1 = b1 := by
  apply UInt8.toNat_inj.mp
  have := b0.toNat_lt
  have := b1.toNat_lt
  rw [toNat_byte, toNat_toUInt32]
  omega

@[simp]
theorem byte_toUInt32_two : byte (toUInt32 b0 b1 b2 b3).toNat 2 = b2 := by
  apply UInt8.toNat_inj.mp
  have := b0.toNat_lt
  have := b1.toNat_lt
  have := b2.toNat_lt
  rw [toNat_byte, toNat_toUInt32]
  omega

@[simp]
theorem byte_toUInt32_three : byte (toUInt32 b0 b1 b2 b3).toNat 3 = b3 := by
  apply UInt8.toNat_inj.mp
  have := b0.toNat_lt
  have := b1.toNat_lt
  have := b2.toNat_lt
  have := b3.toNat_lt
  rw [toNat_byte, toNat_toUInt32]
  omega

end

end LittleEndian
