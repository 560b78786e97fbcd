/-
# Encoding expressions

From instruction trees to bytes.  What is written after an opcode is decided by
the immediate alone; only the second arm of a choice and the lane number look at
the code of the instruction.  A tree whose instructions carry the immediates
their opcodes ask for is read back as it was.
-/

import WasmMachine.Binary.Leb128
import WasmMachine.Instruction.Basic
import WasmMachine.Instruction.Opcode

namespace WasmMachine.Encode

/-- Alignment and offset of a memory access. -/
def memArg (arg : MemArg) : List UInt8 := u32 arg.align ++ u64 arg.offset

/-- Whether a vector instruction names a lane. -/
def takesLane (sub : UInt32) : Bool := 0x15 ≤ sub && sub ≤ 0x22

/-- An immediate without nested instructions. -/
def immediate : Immediate → List UInt8
  | .block type => s64 type.toInt
  | .branch label => u32 label
  | .branchTable labels fallback => vector u32 labels ++ u32 fallback
  | .call func => u32 func
  | .callIndirect type table => u32 type ++ u32 table
  | .localIndex index | .globalIndex index | .tableIndex index | .memoryIndex index => u32 index
  | .memory arg => memArg arg
  | .i32 bits => s64 bits.toInt32.toInt
  | .i64 bits => s64 bits.toInt64.toInt
  | .f32 bits => u32le bits
  | .f64 bits => u64le bits
  | .refNull type => [type.code]
  | .refFunc func => u32 func
  | .select types => vector (fun t => [t.code]) types
  | .misc sub operands => u32 sub ++ operands.flatMap u32
  | .simd sub lane arg bytes =>
      u32 sub ++ (arg.map memArg).getD [] ++ (bytes.map V128.toBytes).getD []
        ++ (if takesLane sub then [lane] else [])

mutual

/-- One instruction with its nested instructions and the byte that closes them. -/
def instruction : Instruction → List UInt8
  | .node op (some (.block type)) body orElse =>
      op :: (immediate (.block type) ++ instructions body
        ++ (if op == Opcode.ifElse && !orElse.isEmpty then
              Opcode.otherwise :: instructions orElse
            else [])
        ++ [Opcode.close])
  | .node op (some imm) _ _ => op :: immediate imm
  | .node op none _ _ => [op]

/-- A sequence without a closing byte. -/
def instructions : List Instruction → List UInt8
  | [] => []
  | i :: rest => instruction i ++ instructions rest

end

/-- A sequence and the byte that closes it. -/
def expr (is : List Instruction) : List UInt8 := instructions is ++ [Opcode.close]

end WasmMachine.Encode
