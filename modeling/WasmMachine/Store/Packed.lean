/-
# Packed bytes

A memory may have as many bytes as 32 bits can count, so they are kept packed.  Packed
bytes are read, overwritten and added to in the same way as other cells; each operation is
told here by what it does to the array of the bytes.
-/

import WasmMachine.Store.Cells

namespace WasmMachine.Packed

/-- The `count` bytes from `start` on, if there are so many. -/
def read? (bytes : ByteArray) (start count : Nat) : Option (List UInt8) :=
  if start + count ≤ bytes.size then some (bytes.extract start (start + count)).data.toList
  else none

/-- Put other bytes in the place of those from `start` on, as far as there are any. -/
def overwrite (bytes : ByteArray) (start : Nat) : List UInt8 → ByteArray
  | [] => bytes
  | item :: rest => overwrite (bytes.set! start item) (start + 1) rest

/-- Add copies of a block at the end. -/
def append (bytes block : ByteArray) : Nat → ByteArray
  | 0 => bytes
  | count + 1 => append (bytes ++ block) block count

/-- A block of zeros. -/
def zeros (size : Nat) : ByteArray := ⟨Array.replicate size 0⟩

theorem read?_eq (bytes : ByteArray) (start count : Nat) :
    read? bytes start count = Cells.read? bytes.data start count := by
  unfold read?
  rw [ByteArray.data_extract]
  rfl

theorem data_overwrite (bytes : ByteArray) (start : Nat) (items : List UInt8) :
    (overwrite bytes start items).data = Cells.overwrite bytes.data start items := by
  induction items generalizing bytes start with
  | nil => rfl
  | cons item rest ih => exact ih (bytes.set! start item) (start + 1)

theorem data_append_zeros (bytes : ByteArray) (size count : Nat) :
    (append bytes (zeros size) count).data = Cells.append bytes.data (count * size) 0 := by
  induction count generalizing bytes with
  | zero => simp [append, Cells.append]
  | succ count ih =>
      unfold append
      rw [ih, ByteArray.data_append]
      unfold Cells.append zeros
      rw [Array.append_assoc, Array.replicate_append_replicate, Nat.succ_mul, Nat.add_comm]

end WasmMachine.Packed
