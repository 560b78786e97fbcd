/-
# Plain instructions

`Step.plain` runs every instruction that neither transfers control nor calls.  The
instruction's immediates are read as the type checker reads them: an immediate of
the wrong sort counts as zero.
-/

import WasmMachine.Instruction.Opcode
import WasmMachine.Machine.Memories
import WasmMachine.Machine.Tables
import WasmMachine.Machine.Variables

namespace WasmMachine

/-- A saturating truncation. The operand says itself how wide it is. -/
def truncateOperand (to64 signed : Bool) : List Value → Except Trap (List Value)
  | .f32 bits :: rest => .ok (result (binary32.value bits.toNat) :: rest)
  | .f64 bits :: rest => .ok (result (binary64.value bits.toNat) :: rest)
  | _ => .error .operands
where
  /-- The truncated number. -/
  result (v : FloatValue) : Value :=
    let width : Numeric.Width := if to64 then .w64 else .w32
    width.intValue (Numeric.truncateSaturating width signed v)

namespace Step

/-- An instruction behind the miscellaneous prefix. -/
def misc (sub : UInt32) (operands : List UInt32) : Step Unit :=
  let first := operands[0]?.getD 0
  let second := operands[1]?.getD 0
  match MiscOp.ofCode sub with
  | none => throw (.unsupportedMisc sub)
  | some (.truncate to64 _ signed) => onOperands (truncateOperand to64 signed)
  | some .memoryInit => memoryInit first
  | some .dataDrop => dataDrop first
  | some .memoryCopy => memoryCopy
  | some .memoryFill => memoryFill
  | some .tableInit => tableInit first second
  | some .elemDrop => elemDrop first
  | some .tableCopy => tableCopy first second
  | some .tableGrow => tableGrow first
  | some .tableSize => tableSize first
  | some .tableFill => tableFill first

/-- A vector instruction. -/
def vector (imm : Instruction.VectorImmediate) : Step Unit :=
  match VectorOp.ofCode imm.sub with
  | none => throw (.unsupportedVector imm.sub)
  | some op =>
      match op.access? with
      | some (width, store) => vectorAccess op width store ((imm.arg.map (·.offset)).getD 0)
      | none => onOperands (op.apply imm.lane imm.bytes)

/-- An instruction that neither transfers control nor calls. -/
def plain (options : Options) (i : Instruction) : Step Unit :=
  match Numeric.Operation.ofOpcode i.opcode with
  | some operation => onOperands operation.apply
  | none =>
    match MemoryAccess.ofOpcode i.opcode with
    | some access => memoryAccess access i.memArg.offset
    | none =>
      match i.opcode with
      | Opcode.unreachable => throw .unreachable
      | Opcode.nop => return ()
      | Opcode.drop => discard popValue
      | Opcode.select | Opcode.selectTyped => select options.select
      | Opcode.localGet => localGet i.localIndex
      | Opcode.localSet => localSet i.localIndex
      | Opcode.localTee => localTee i.localIndex
      | Opcode.globalGet => globalGet i.globalIndex
      | Opcode.globalSet => globalSet i.globalIndex
      | Opcode.tableGet => tableGet i.tableIndex
      | Opcode.tableSet => tableSet i.tableIndex
      | Opcode.memorySize => memorySize
      | Opcode.memoryGrow => memoryGrow
      | Opcode.i32Const => push (.i32 i.i32Bits)
      | Opcode.i64Const => push (.i64 i.i64Bits)
      | Opcode.f32Const => push (.f32 i.f32Bits)
      | Opcode.f64Const => push (.f64 i.f64Bits)
      | Opcode.refNull => push (.ref (.null i.refNullType))
      | Opcode.refIsNull => refIsNull
      | Opcode.refFunc => refFunc i.refFuncIndex
      | Opcode.misc => misc i.misc.1 i.misc.2
      | Opcode.vector => vector i.vector
      | op => throw (.unsupportedOpcode op)

end Step

end WasmMachine
