/-
# Numbers of variable length

Integers in groups of seven bits, lowest group first; the top bit of a byte says
that another follows.  A signed number repeats the top bit of its last group.
Reading admits encodings that are longer than necessary as long as they stay
within the bytes that the width needs.
-/

import WasmMachine.Binary.Reader
import WasmMachine.Numeric.Power

namespace WasmMachine

namespace Decoder

/-- The groups of an unsigned 32-bit number from weight `2 ^ shift` on, with
`budget` bytes allowed. The last byte allowed has room for four bits only, and
no byte may follow it. -/
def unsignedGroups : Nat → Nat → UInt32 → Decoder UInt32
  | 0, _, _ => failHere .overflow
  | budget + 1, shift, result => do
      let b ← byte
      if shift == 28 && b &&& 0x70 != 0 then failHere .overflow
      let result := result ||| (UInt32.ofNat (b &&& 0x7f).toNat <<< UInt32.ofNat shift)
      if b &&& 0x80 == 0 then return result
      unsignedGroups budget (shift + 7) result

/-- An unsigned 32-bit number. -/
def u32 : Decoder UInt32 := unsignedGroups 5 0 0

/-- The groups of a signed number from weight `2 ^ shift` on, with `budget` bytes
allowed. Bits above the sixty-fourth are lost. -/
def signedGroups : Nat → Nat → UInt64 → Decoder UInt64
  | 0, _, _ => failHere .overflow
  | budget + 1, shift, result => do
      let b ← byte
      let group := UInt64.ofNat (b &&& 0x7f).toNat
      let result := result ||| (group <<< UInt64.ofNat shift)
      let shift := shift + 7
      if b &&& 0x80 != 0 then signedGroups budget shift result
      else if shift < 64 && b &&& 0x40 != 0 then
        return result ||| (0xffffffffffffffff <<< UInt64.ofNat shift)
      else return result

/-- A signed number of `width` bits, at most 64, as an integer. -/
def signed (width : Nat) : Decoder Int := do
  let value := (← signedGroups ((width + 6) / 7) 0 0).toInt64.toInt
  if width < 64 && (value < -(2 ^ (width - 1)) || 2 ^ (width - 1) ≤ value) then
    failHere .overflow
  return value

/-- A signed 32-bit number. -/
def s32 : Decoder Int := signed 32

/-- A signed 33-bit number. -/
def s33 : Decoder Int := signed 33

/-- A signed 64-bit number. -/
def s64 : Decoder Int := signed 64

/-- A name: its length in bytes and its text. -/
def name : Decoder String := do
  let length ← u32
  let text ← bytes length.toNat
  match String.fromUTF8? (ByteArray.mk text.toArray) with
  | some s => return s
  | none => failHere .invalidUtf8

end Decoder

namespace Encode

/-- The bytes of an unsigned number; `fuel` bounds the groups. -/
def unsignedGroups : Nat → Nat → List UInt8
  | 0, _ => []
  | fuel + 1, n =>
      let group := UInt8.ofNat (n % 128)
      if n / 128 == 0 then [group] else (group ||| 0x80) :: unsignedGroups fuel (n / 128)

/-- An unsigned 32-bit number in the fewest bytes. -/
def u32 (n : UInt32) : List UInt8 := unsignedGroups 5 n.toNat

/-- An unsigned 64-bit number in the fewest bytes. -/
def u64 (n : UInt64) : List UInt8 := unsignedGroups 10 n.toNat

/-- The bytes of a signed number; `fuel` bounds the groups. The last group is the
first whose top bit already says the sign of all that is left. -/
def signedGroups : Nat → Int → List UInt8
  | 0, _ => []
  | fuel + 1, n =>
      let group := UInt8.ofNat (n % 128).toNat
      let next := n / 128
      if (next == 0 && group &&& 0x40 == 0) || (next == -1 && group &&& 0x40 != 0) then [group]
      else (group ||| 0x80) :: signedGroups fuel next

/-- A signed 64-bit number in the fewest bytes. -/
def s64 (n : Int) : List UInt8 := signedGroups 10 n

/-- The low `k` bytes of a number, lowest first. -/
def littleEndian : Nat → Nat → List UInt8
  | 0, _ => []
  | k + 1, n => UInt8.ofNat (n % 256) :: littleEndian k (n / 256)

/-- Four bytes of a number, lowest first. -/
def u32le (n : UInt32) : List UInt8 := littleEndian 4 n.toNat

/-- Eight bytes of a number, lowest first. -/
def u64le (n : UInt64) : List UInt8 := littleEndian 8 n.toNat

/-- A count as the length of what follows, modulo `2 ^ 32`. -/
def length (n : Nat) : List UInt8 := u32 (UInt32.ofNat n)

/-- A name: its length in bytes and its text. -/
def name (s : String) : List UInt8 :=
  let text := s.toUTF8.toList
  length text.length ++ text

/-- A section: its number, its size and its contents. -/
def section_ (id : UInt8) (payload : List UInt8) : List UInt8 :=
  id :: (length payload.length ++ payload)

/-- A vector: its length and its items. -/
def vector {α : Type} (item : α → List UInt8) (items : List α) : List UInt8 :=
  length items.length ++ items.flatMap item

end Encode

end WasmMachine
