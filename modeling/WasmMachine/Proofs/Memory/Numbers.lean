/-
# Bytes, numbers and bits

Bytes stand for a number, the lowest byte first.  Bit `k` of that number is bit `k % 8` of
byte `k / 8`, which is also how a vector is put together from its bytes.  So all values that
are read from a memory or written to one can be compared as patterns of bits.
-/

import WasmMachine.Machine.Memories
import WasmMachine.Proofs.Binary.Vector
import WasmMachine.Proofs.Vector.Lanes

namespace WasmMachine

namespace Value

/-- The number of bits of a value; a reference has none. -/
def width : Value → Nat
  | .i32 _ => 32
  | .i64 _ => 64
  | .f32 _ => 32
  | .f64 _ => 64
  | .v128 _ => 128
  | .ref _ => 0

/-- The pattern that a value is. -/
def bits : (v : Value) → BitVec v.width
  | .i32 bits => bits.toBitVec
  | .i64 bits => bits.toBitVec
  | .f32 bits => bits.toBitVec
  | .f64 bits => bits.toBitVec
  | .v128 bits => bits
  | .ref _ => 0#0

end Value

/-! ## The number of some bytes -/

namespace Bytes

/-- The number that `width` bytes stand for, as a pattern. -/
def number (width : Nat) (bytes : List UInt8) : BitVec (8 * width) :=
  BitVec.ofNat (8 * width) (Decoder.littleEndian bytes)

variable {width : Nat} {bytes : List UInt8}

theorem littleEndian_lt_two_pow (length : bytes.length = width) :
    Decoder.littleEndian bytes < 2 ^ (8 * width) := by
  rw [Nat.pow_mul, ← length]
  exact Decoder.littleEndian_lt bytes

theorem toNat_number (length : bytes.length = width) :
    (number width bytes).toNat = Decoder.littleEndian bytes := by
  rw [number, BitVec.toNat_ofNat, Nat.mod_eq_of_lt (littleEndian_lt_two_pow length)]

/-- The low bytes of a pattern stand for its low bits. -/
theorem number_encode {w : Nat} (width : Nat) (x : BitVec w) :
    number width (Encode.littleEndian width x.toNat) = x.setWidth (8 * width) := by
  have same : (256 : Nat) ^ width = 2 ^ (8 * width) := (Nat.pow_mul 2 8 width).symm
  apply BitVec.eq_of_toNat_eq
  rw [toNat_number (Decoder.length_littleEndian width x.toNat), Decoder.littleEndian_encode, same,
    BitVec.toNat_setWidth]

theorem toInt_number (length : bytes.length = width) (some_byte : 0 < width) :
    (number width bytes).toInt = signedReading width (Decoder.littleEndian bytes) := by
  have twice : 2 ^ (8 * width) = 2 * 2 ^ (8 * width - 1) := by
    rw [← Nat.pow_succ']
    congr 1
    omega
  rw [BitVec.toInt_eq_toNat_cond, toNat_number length, signedReading]
  by_cases low : Decoder.littleEndian bytes < 2 ^ (8 * width - 1)
  · rw [if_pos low, if_pos (by omega)]
  · rw [if_neg low, if_neg (by omega)]
    norm_cast

/-- Each bit comes from the byte that it lies in. -/
theorem testBit_littleEndian (bytes : List UInt8) (k : Nat) :
    (Decoder.littleEndian bytes).testBit k =
      (bytes.getD (k / 8) 0).toBitVec.getLsbD (k % 8) := by
  induction bytes generalizing k with
  | nil => simp [Decoder.littleEndian]
  | cons byte bytes ih =>
      have value : Decoder.littleEndian (byte :: bytes) =
          2 ^ 8 * Decoder.littleEndian bytes + byte.toNat := Nat.add_comm _ _
      rw [value, Nat.testBit_two_pow_mul_add _ byte.toNat_lt]
      by_cases first : k < 8
      · rw [if_pos first, Nat.div_eq_of_lt first, Nat.mod_eq_of_lt first]
        rfl
      · have next : k / 8 = (k - 8) / 8 + 1 := by omega
        have same : k % 8 = (k - 8) % 8 := by omega
        rw [if_neg first, ih, next, same]
        rfl

end Bytes

/-! ## Integers -/

theorem toBitVec_ofInt32 (x : Int) : (UInt32.ofInt x).toBitVec = BitVec.ofInt 32 x := by
  have small : (x % 2 ^ 32).toNat < 2 ^ 32 := by omega
  apply BitVec.eq_of_toNat_eq
  rw [BitVec.toNat_ofInt]
  exact UInt32.toNat_ofNat_of_lt' small

theorem toBitVec_ofInt64 (x : Int) : (UInt64.ofInt x).toBitVec = BitVec.ofInt 64 x := by
  have small : (x % 2 ^ 64).toNat < 2 ^ 64 := by omega
  apply BitVec.eq_of_toNat_eq
  rw [BitVec.toNat_ofInt]
  exact UInt64.toNat_ofNat_of_lt' small

/-! ## Vectors -/

namespace V128

theorem lane_ofLanes {w n i : Nat} (f : Nat → BitVec w) (inside : i < n) (fits : n * w ≤ 128) :
    (ofLanes w n f).lane w i = f i := by
  apply BitVec.eq_of_getLsbD_eq
  intro k small
  have positive : 0 < w := Nat.lt_of_le_of_lt (Nat.zero_le k) small
  have below : i * w + k < n * w :=
    calc i * w + k < (i + 1) * w := by rw [Nat.succ_mul]; omega
      _ ≤ n * w := Nat.mul_le_mul_right w inside
  have quotient : (i * w + k) / w = i := by
    rw [Nat.mul_comm, Nat.mul_add_div positive, Nat.div_eq_of_lt small, Nat.add_zero]
  have remainder : (i * w + k) % w = k := by
    rw [Nat.mul_comm, Nat.mul_add_mod, Nat.mod_eq_of_lt small]
  rw [lane, BitVec.getLsbD_extractLsb', getLsbD_ofLanes positive, quotient, remainder]
  simp [small, below, Nat.lt_of_lt_of_le below fits]

/-- A vector is the number of its bytes; missing bytes are zero and further ones do not count. -/
theorem ofBytes_eq (bytes : List UInt8) :
    ofBytes bytes = BitVec.ofNat 128 (Decoder.littleEndian bytes) := by
  apply BitVec.eq_of_getLsbD_eq
  intro k small
  rw [ofBytes, getLsbD_ofLanes (by decide), BitVec.getLsbD_ofNat, Bytes.testBit_littleEndian]
  simp [small]

theorem toBytes_eq (v : V128) : v.toBytes = Encode.littleEndian 16 v.toNat := by
  have length := v.length_toBytes
  have back : v = BitVec.ofNat 128 (Decoder.littleEndian v.toBytes) := by
    rw [← ofBytes_eq, ofBytes_toBytes]
  have number : v.toNat = Decoder.littleEndian v.toBytes := by
    rw [congrArg BitVec.toNat back, BitVec.toNat_ofNat,
      Nat.mod_eq_of_lt (Bytes.littleEndian_lt_two_pow length)]
  have bytes := Decoder.encode_littleEndian v.toBytes
  rw [length, ← number] at bytes
  exact bytes.symm

end V128

end WasmMachine
