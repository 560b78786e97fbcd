/-
# Memory instructions

Loads and stores, growing, and the bulk operations.  An effective address is the
sum of the address on the stack and the constant offset, in 64 bits.
-/

import WasmMachine.Binary.Leb128
import WasmMachine.Instruction.Families
import WasmMachine.Machine.Scope
import WasmMachine.Vector.Operation

namespace WasmMachine

/-- The number that `width` bytes stand for when they are read with a sign. -/
def signedReading (width n : Nat) : Int :=
  if n < 2 ^ (8 * width - 1) then n else (n : Int) - 2 ^ (8 * width)

namespace MemoryAccess

/-- The value that a load makes of the bytes it reads. -/
def decode (a : MemoryAccess) (bytes : List UInt8) : Value :=
  let n := Decoder.littleEndian bytes
  let reading : Int := if a.signed then signedReading a.width n else n
  if a.type = .i32 then .i32 (UInt32.ofInt reading)
  else if a.type = .i64 then .i64 (UInt64.ofInt reading)
  else if a.type = .f32 then .f32 (UInt32.ofNat n)
  else .f64 (UInt64.ofNat n)

/-- The bytes that a store writes: the low ones of the operand, lowest first. An
operand of another type is refused. -/
def encode? (a : MemoryAccess) (v : Value) : Option (List UInt8) :=
  if v.type = a.type then
    match v with
    | .i32 bits => some (Encode.littleEndian a.width bits.toNat)
    | .i64 bits => some (Encode.littleEndian a.width bits.toNat)
    | .f32 bits => some (Encode.littleEndian a.width bits.toNat)
    | .f64 bits => some (Encode.littleEndian a.width bits.toNat)
    | _ => none
  else none

end MemoryAccess

/-- The vector that a vector load makes of the bytes it reads. -/
def VectorOp.decode (op : VectorOp) (bytes : List UInt8) : V128 :=
  let v := V128.ofBytes bytes
  match op with
  | .loadExtend from_ signed => V128.extend from_ false signed v
  | .loadSplat width => V128.splat width (v.lane width.bits 0)
  | _ => v

namespace Step

/-- The first byte of the access that takes its base from the stack, once it is
known to lie in the memory. -/
def accessStart (addr : Addr) (offset : UInt64) (width : Nat) : Step Nat := do
  let size := (← fetch (·.memories) (.noMemory 0) addr).bytes.size
  let base ← popI32
  let start := base.toUInt64 + offset
  let stop := start + UInt64.ofNat width
  if stop < start ∨ size < stop.toNat then throw .memoryBounds
  return start.toNat

/-- Read `width` bytes at the address on the stack. -/
def loadBytes (offset : UInt64) (width : Nat) : Step (List UInt8) := do
  let addr ← memoryAddress 0
  let start ← accessStart addr offset width
  match Packed.read? (← fetch (·.memories) (.noMemory 0) addr).bytes start width with
  | some bytes => return bytes
  | none => throw .memoryBounds

/-- Write bytes at the address on the stack. -/
def storeBytes (offset : UInt64) (bytes : List UInt8) : Step Unit := do
  let addr ← memoryAddress 0
  let start ← accessStart addr offset bytes.length
  modifyStore (·.writeMemory addr start bytes)

/-- A load or store of a scalar. -/
def memoryAccess (a : MemoryAccess) (offset : UInt64) : Step Unit := do
  if a.store then
    match a.encode? (← popValue) with
    | some bytes => storeBytes offset bytes
    | none => throw .operands
  else
    push (a.decode (← loadBytes offset a.width))

/-- A load or store of a vector. -/
def vectorAccess (op : VectorOp) (width : Nat) (store : Bool) (offset : UInt64) : Step Unit := do
  if store then
    match ← popValue with
    | .v128 v => storeBytes offset v.toBytes
    | _ => throw .operands
  else
    push (.v128 (op.decode (← loadBytes offset width)))

/-- The number of pages. -/
def memorySize : Step Unit := do
  let memory ← fetch (·.memories) (.noMemory 0) (← memoryAddress 0)
  push (.i32 (UInt32.ofNat memory.pages))

/-- Add pages and give their old number, or -1 if the memory may not grow. -/
def memoryGrow : Step Unit := do
  let addr ← memoryAddress 0
  let memory ← fetch (·.memories) (.noMemory 0) addr
  let n ← popI32
  if memory.mayGrow n.toNat then
    push (.i32 (UInt32.ofNat memory.pages))
    modifyStore (·.growMemory addr n.toNat)
  else push (.i32 (-1))

/-- Copy bytes out of a data segment. -/
def memoryInit (segment : UInt32) : Step Unit := do
  let segmentAddr ← dataAddress segment
  let addr ← memoryAddress 0
  let (d, s, n) ← popThree
  let source := (← fetch (·.datas) (.noData segment) segmentAddr).data
  let size := (← fetch (·.memories) (.noMemory 0) addr).bytes.size
  if source.length < s.toNat + n.toNat ∨ size < d.toNat + n.toNat then throw .memoryBounds
  modifyStore (·.writeMemory addr d.toNat ((source.drop s.toNat).take n.toNat))

/-- Empty a data segment. -/
def dataDrop (segment : UInt32) : Step Unit := do
  let addr ← dataAddress segment
  modifyStore (·.dropData addr)

/-- Copy bytes within the memory. -/
def memoryCopy : Step Unit := do
  let addr ← memoryAddress 0
  let (d, s, n) ← popThree
  let bytes := (← fetch (·.memories) (.noMemory 0) addr).bytes
  match Packed.read? bytes s.toNat n.toNat with
  | none => throw .memoryBounds
  | some moved =>
      if bytes.size < d.toNat + n.toNat then throw .memoryBounds
      modifyStore (·.writeMemory addr d.toNat moved)

/-- Write one byte to a run of cells. -/
def memoryFill : Step Unit := do
  let addr ← memoryAddress 0
  let (d, v, n) ← popThree
  let size := (← fetch (·.memories) (.noMemory 0) addr).bytes.size
  if size < d.toNat + n.toNat then throw .memoryBounds
  modifyStore (·.writeMemory addr d.toNat (List.replicate n.toNat v.toUInt8))

end Step

end WasmMachine
