/-
# Families of instructions

Loads and stores of scalars, and the instructions behind the miscellaneous
prefix byte.
-/

import WasmMachine.Types

namespace WasmMachine

/-- A load or store of a scalar: the type of the operand, the number of bytes in
memory, whether a narrow load repeats the sign, and the direction. -/
structure MemoryAccess where
  type : ValType
  width : Nat
  signed : Bool
  store : Bool
  deriving DecidableEq, Repr

/-- The load or store of an opcode. -/
def MemoryAccess.ofOpcode (op : UInt8) : Option MemoryAccess :=
  match op.toNat with
  | 0x28 => some ⟨.i32, 4, false, false⟩
  | 0x29 => some ⟨.i64, 8, false, false⟩
  | 0x2a => some ⟨.f32, 4, false, false⟩
  | 0x2b => some ⟨.f64, 8, false, false⟩
  | 0x2c => some ⟨.i32, 1, true, false⟩
  | 0x2d => some ⟨.i32, 1, false, false⟩
  | 0x2e => some ⟨.i32, 2, true, false⟩
  | 0x2f => some ⟨.i32, 2, false, false⟩
  | 0x30 => some ⟨.i64, 1, true, false⟩
  | 0x31 => some ⟨.i64, 1, false, false⟩
  | 0x32 => some ⟨.i64, 2, true, false⟩
  | 0x33 => some ⟨.i64, 2, false, false⟩
  | 0x34 => some ⟨.i64, 4, true, false⟩
  | 0x35 => some ⟨.i64, 4, false, false⟩
  | 0x36 => some ⟨.i32, 4, false, true⟩
  | 0x37 => some ⟨.i64, 8, false, true⟩
  | 0x38 => some ⟨.f32, 4, false, true⟩
  | 0x39 => some ⟨.f64, 8, false, true⟩
  | 0x3a => some ⟨.i32, 1, false, true⟩
  | 0x3b => some ⟨.i32, 2, false, true⟩
  | 0x3c => some ⟨.i64, 1, false, true⟩
  | 0x3d => some ⟨.i64, 2, false, true⟩
  | 0x3e => some ⟨.i64, 4, false, true⟩
  | _ => none

/-- An instruction behind the miscellaneous prefix. A saturating truncation is
given by the width of the integer, the width of the float and the sign. -/
inductive MiscOp
  | truncate (to64 from64 signed : Bool)
  | memoryInit
  | dataDrop
  | memoryCopy
  | memoryFill
  | tableInit
  | elemDrop
  | tableCopy
  | tableGrow
  | tableSize
  | tableFill
  deriving DecidableEq, Repr

namespace MiscOp

/-- The instruction of a number. -/
def ofCode (sub : UInt32) : Option MiscOp :=
  match sub.toNat with
  | 0x00 => some (.truncate false false true)
  | 0x01 => some (.truncate false false false)
  | 0x02 => some (.truncate false true true)
  | 0x03 => some (.truncate false true false)
  | 0x04 => some (.truncate true false true)
  | 0x05 => some (.truncate true false false)
  | 0x06 => some (.truncate true true true)
  | 0x07 => some (.truncate true true false)
  | 0x08 => some .memoryInit
  | 0x09 => some .dataDrop
  | 0x0a => some .memoryCopy
  | 0x0b => some .memoryFill
  | 0x0c => some .tableInit
  | 0x0d => some .elemDrop
  | 0x0e => some .tableCopy
  | 0x0f => some .tableGrow
  | 0x10 => some .tableSize
  | 0x11 => some .tableFill
  | _ => none

/-- The number of indices that follow the instruction's number. -/
def operandCount : MiscOp → Nat
  | .truncate _ _ _ => 0
  | .dataDrop | .memoryFill | .elemDrop | .tableGrow | .tableSize | .tableFill => 1
  | .memoryInit | .memoryCopy | .tableInit | .tableCopy => 2

end MiscOp

end WasmMachine
