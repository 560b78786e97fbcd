/-
# Decoding expressions

From bytes to instruction trees.  A sequence ends with the byte that closes it or
with the byte that divides the arms of a choice; whoever asked for the sequence
decides which of the two it accepts.

The recursion is bounded by the number of bytes left, because every instruction
takes at least one; `decodeExpr` supplies that bound, and running out of it is
reported as running out of bytes.
-/

import WasmMachine.Binary.Vector
import WasmMachine.Instruction.Basic
import WasmMachine.Instruction.Opcode
import WasmMachine.Instruction.Families
import WasmMachine.Numeric.Operation
import WasmMachine.Vector.Operation

namespace WasmMachine.Decoder

/-- A value type. -/
def valType : Decoder ValType := do
  let b ← byte
  if !(ValType.mk b).isValid then throw (.valueType b)
  return ⟨b⟩

/-- A block type: one of the shorthands or a type index. -/
def blockType : Decoder BlockType := do
  let v ← s33
  if v < 0 then
    if (BlockType.shorthand? (Int32.ofInt v)).isNone then throw (.blockType v)
    return Int32.ofInt v
  if 2 ^ 31 ≤ v then throw (.blockTypeIndex v)
  return Int32.ofInt v

/-- Alignment and offset of a memory access. -/
def memArg : Decoder MemArg := do
  let align ← u32
  if 64 ≤ align then throw (.alignment align)
  let offset ← u32
  return ⟨align, offset.toUInt64⟩

/-- What follows the miscellaneous prefix. -/
def miscImmediate : Decoder Immediate := do
  let sub ← u32
  match MiscOp.ofCode sub with
  | none => throw (.miscCode sub)
  | some op => return .misc sub (← items op.operandCount fun _ => u32)

/-- What follows the vector prefix. -/
def vectorImmediate : Decoder Immediate := do
  let sub ← u32
  match VectorOp.ofCode sub with
  | none => throw (.vectorCode sub)
  | some op =>
      match op.immediate with
      | .memArg => return .simd sub 0 (some (← memArg)) none
      | .bytes => return .simd sub 0 none (some (V128.ofBytes (← bytes 16)))
      | .lane => do
          let lane ← byte
          let lanes := (op.laneShape?.map (·.width.count)).getD 0
          if lanes ≤ lane.toNat then throw (.lane lane)
          return .simd sub lane none none
      | .nothing => return .simd sub 0 none none

/-- The labels of a branch table. -/
def branchTable (early : Bool) : Decoder Immediate := do
  let n ← u32
  let bytes ← left
  if early && bytes < n.toNat then failIn "br_table" (.labelCount n)
  let labels ← items n.toNat fun _ => u32
  return .branchTable labels (← u32)

/-- The type of a typed select. -/
def selectImmediate : Decoder Immediate := do
  let n ← u32
  if n != 1 then failIn "select" (.selectTypes n)
  return .select [← valType]

/-- The type of a null reference. -/
def nullImmediate : Decoder Immediate := do
  let t ← valType
  if !t.isRef then throw (.nullType t.code)
  return .refNull t

/-- The immediate of an instruction that is no structured construct. -/
def immediate (early : Bool) (op : UInt8) : Decoder (Option Immediate) := do
  match op with
  | Opcode.br | Opcode.brIf => return some (.branch (← u32))
  | Opcode.brTable => return some (← branchTable early)
  | Opcode.call => return some (.call (← u32))
  | Opcode.callIndirect => return some (.callIndirect (← u32) (← u32))
  | Opcode.unreachable | Opcode.nop | Opcode.ret | Opcode.drop | Opcode.select
  | Opcode.refIsNull => return none
  | Opcode.selectTyped => return some (← selectImmediate)
  | Opcode.localGet | Opcode.localSet | Opcode.localTee => return some (.localIndex (← u32))
  | Opcode.globalGet | Opcode.globalSet => return some (.globalIndex (← u32))
  | Opcode.tableGet | Opcode.tableSet => return some (.tableIndex (← u32))
  | Opcode.memorySize | Opcode.memoryGrow => return some (.memoryIndex (← u32))
  | Opcode.i32Const => return some (.i32 (UInt32.ofInt (← s32)))
  | Opcode.i64Const => return some (.i64 (UInt64.ofInt (← s64)))
  | Opcode.f32Const => return some (.f32 (← u32le))
  | Opcode.f64Const => return some (.f64 (← u64le))
  | Opcode.refNull => return some (← nullImmediate)
  | Opcode.refFunc => return some (.refFunc (← u32))
  | Opcode.misc => return some (← miscImmediate)
  | Opcode.vector => return some (← vectorImmediate)
  | _ =>
      if (MemoryAccess.ofOpcode op).isSome then return some (.memory (← memArg))
      else if (Numeric.Operation.ofOpcode op).isSome then return none
      else throw (.opcode op)

mutual

/-- A sequence at nesting level `level`, behind the instructions in `done` (last
first), and the byte that ended it. -/
def sequence (early : Bool) :
    Nat → Nat → List Instruction → Decoder (List Instruction × UInt8)
  | 0, _, _ => failIn "code" .endOfInput
  | fuel + 1, level, done => do
      let op ← locate "code" byte
      if op == Opcode.close || op == Opcode.otherwise then return (done.reverse, op)
      let i ← instruction early fuel level op
      sequence early fuel level (i :: done)

/-- One instruction after its opcode. -/
def instruction (early : Bool) : Nat → Nat → UInt8 → Decoder Instruction
  | 0, _, _ => failIn "code" .endOfInput
  | fuel + 1, level, op =>
      if op == Opcode.block || op == Opcode.loop || op == Opcode.ifElse then do
        let type ← blockType
        let (body, ending) ← nested early fuel level
        if ending == Opcode.otherwise then
          if op != Opcode.ifElse then failIn "code" .elseOutsideIf
          let (arm, ending) ← nested early fuel level
          if ending != Opcode.close then failIn "code" .duplicateElse
          return .node op (some (.block type)) body arm
        return .node op (some (.block type)) body []
      else do
        return .plain op (← locate "code" (immediate early op))

/-- The sequence inside a construct at nesting level `level`. -/
def nested (early : Bool) : Nat → Nat → Decoder (List Instruction × UInt8)
  | 0, _ => failIn "code" .endOfInput
  | fuel + 1, level =>
      if maxNesting ≤ level then failIn "code" .nesting
      else sequence early fuel (level + 1) []

end

/-- An expression: a sequence and the byte that closes it. -/
def expr (early : Bool) : Decoder (List Instruction) := do
  let bytes ← left
  let (is, ending) ← sequence early (3 * bytes + 3) 0 []
  if ending != Opcode.close then failIn "expr" .unexpectedElse
  return is

/-- A byte string that is one expression and nothing else. -/
def wholeExpr (early : Bool) : Decoder (List Instruction) := do
  let is ← expr early
  let bytes ← left
  if bytes != 0 then throw (.trailing bytes)
  return is

end WasmMachine.Decoder

namespace WasmMachine

/-- Decode a byte string that holds one expression. -/
def decodeExpr (bytes : List UInt8) : Except DecodeError (List Instruction) :=
  match Decoder.wholeExpr true (Reader.ofBytes bytes) with
  | .ok is _ => .ok is
  | .error cause _ => .error cause

end WasmMachine
