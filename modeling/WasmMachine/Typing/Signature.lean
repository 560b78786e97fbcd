/-
# Signatures of plain instructions

Most instructions have one operand signature once their immediates and the
context are known: they take operands of fixed types and give results of fixed
types.  `signature` computes it, after the side conditions that the instruction
puts on its immediates.  The instructions that accept operands of more than one
type, and those that transfer control, are typed by the checker itself.
-/

import WasmMachine.Instruction.Families
import WasmMachine.Numeric.Operation
import WasmMachine.Typing.Context
import WasmMachine.Typing.Violation
import WasmMachine.Vector.Operation

namespace WasmMachine.Typing

/-- The entry of an index space, or the report that there is none. -/
def entry {α : Type} (space : Space) (items : List α) (index : UInt32) : Except Violation α :=
  match items[index.toNat]? with
  | some item => .ok item
  | none => .error (.unknownIndex space index)

namespace Context

variable (ctx : Context)

/-- There is a memory. -/
def needMemory : Except Violation Unit :=
  if ctx.memories.isEmpty then .error (.unknownIndex .memory 0) else .ok ()

/-- There is a data segment of that index. -/
def needData (index : UInt32) : Except Violation Unit :=
  if ctx.dataCount ≤ index.toNat then .error (.unknownIndex .data index) else .ok ()

/-- The promised alignment of an access is at most the number of bytes moved. -/
def checkAlignment (op : UInt8) (align : UInt32) (width : Nat) : Except Violation Unit :=
  if 32 ≤ align.toNat || width < 2 ^ align.toNat then .error (.alignment op align width)
  else .ok ()

/-- The signature of a load or store of `width` bytes. -/
def accessSignature (op : UInt8) (align : UInt32) (width : Nat) (type : ValType) (store : Bool) :
    Except Violation FuncType := do
  ctx.needMemory
  checkAlignment op align width
  return if store then ⟨[.i32, type], []⟩ else ⟨[.i32], [type]⟩

/-- The three operands of the bulk instructions: target, source and length. -/
def bulkOperands : FuncType := ⟨[.i32, .i32, .i32], []⟩

/-- The signature of an instruction behind the miscellaneous prefix. -/
def miscSignature (op : UInt8) (sub : UInt32) (operands : List UInt32) :
    Except Violation FuncType := do
  let first := operands[0]?.getD 0
  let second := operands[1]?.getD 0
  match MiscOp.ofCode sub with
  | none => throw (.unsupportedMisc sub)
  | some (.truncate to64 from64 _) =>
      return ⟨[if from64 then .f64 else .f32], [if to64 then .i64 else .i32]⟩
  | some .memoryInit =>
      ctx.needData first
      ctx.needMemory
      return bulkOperands
  | some .dataDrop =>
      ctx.needData first
      return ⟨[], []⟩
  | some .memoryCopy | some .memoryFill =>
      ctx.needMemory
      return bulkOperands
  | some .tableInit =>
      let segment ← entry .element ctx.elements first
      let table ← entry .table ctx.tables second
      if table.elem ≠ segment then throw (.initTypes op segment table.elem)
      return bulkOperands
  | some .elemDrop =>
      let _ ← entry .element ctx.elements first
      return ⟨[], []⟩
  | some .tableCopy =>
      let target ← entry .table ctx.tables first
      let source ← entry .table ctx.tables second
      if target.elem ≠ source.elem then throw (.copyTypes op target.elem source.elem)
      return bulkOperands
  | some .tableGrow =>
      let table ← entry .table ctx.tables first
      return ⟨[table.elem, .i32], [.i32]⟩
  | some .tableSize =>
      let _ ← entry .table ctx.tables first
      return ⟨[], [.i32]⟩
  | some .tableFill =>
      let table ← entry .table ctx.tables first
      return ⟨[.i32, table.elem, .i32], []⟩

/-- The lane numbers of a shuffle choose among the 32 bytes of two vectors. -/
def checkShuffle (op : UInt8) (bytes : Option V128) : Except Violation Unit :=
  match bytes with
  | none => .error (.shuffleMissing op)
  | some indices =>
      match indices.toBytes.find? fun index => decide (32 ≤ index.toNat) with
      | some index => .error (.shuffleRange op index.toNat)
      | none => .ok ()

/-- The signature of a vector instruction. -/
def vectorSignature (op : UInt8) (imm : Instruction.VectorImmediate) :
    Except Violation FuncType := do
  match VectorOp.ofCode imm.sub with
  | none => throw (.unsupportedVector imm.sub)
  | some vector =>
      match vector.access? with
      | some (width, store) =>
          ctx.accessSignature op ((imm.arg.map (·.align)).getD 0) width .v128 store
      | none =>
          if let some shape := vector.laneShape? then
            if shape.width.count ≤ imm.lane.toNat then
              throw (.laneRange op imm.lane shape.width.count)
          if vector = .shuffle then checkShuffle op imm.bytes
          return ⟨vector.signature.1, vector.signature.2⟩

/-- The local variable of an index. -/
def localType (index : UInt32) : Except Violation ValType :=
  match ctx.locals[index.toNat]? with
  | some type => .ok type
  | none => .error (.noLocal index ctx.locals.length)

/-- The signature of a plain instruction. -/
def signature (i : Instruction) : Except Violation FuncType := do
  let op := i.opcode
  if let some operation := Numeric.Operation.ofOpcode op then
    return ⟨operation.operands, [operation.result]⟩
  if let some access := MemoryAccess.ofOpcode op then
    return ← ctx.accessSignature op i.memArg.align access.width access.type access.store
  match op with
  | Opcode.i32Const => return ⟨[], [.i32]⟩
  | Opcode.i64Const => return ⟨[], [.i64]⟩
  | Opcode.f32Const => return ⟨[], [.f32]⟩
  | Opcode.f64Const => return ⟨[], [.f64]⟩
  | Opcode.nop => return ⟨[], []⟩
  | Opcode.call => entry .function ctx.funcs i.callIndex
  | Opcode.callIndirect =>
      let (typeIndex, tableIndex) := i.callIndirect
      let table ← entry .table ctx.tables tableIndex
      if table.elem ≠ .funcref then throw (.notFuncTable op tableIndex)
      let type ← entry .type ctx.types typeIndex
      return ⟨type.params ++ [.i32], type.results⟩
  | Opcode.selectTyped =>
      match i.selectTypes with
      | [type] => return ⟨[type, type, .i32], [type]⟩
      | _ => throw (.selectTypes op)
  | Opcode.localGet =>
      let type ← ctx.localType i.localIndex
      return ⟨[], [type]⟩
  | Opcode.localSet =>
      let type ← ctx.localType i.localIndex
      return ⟨[type], []⟩
  | Opcode.localTee =>
      let type ← ctx.localType i.localIndex
      return ⟨[type], [type]⟩
  | Opcode.globalGet =>
      let global ← entry .global ctx.globals i.globalIndex
      return ⟨[], [global.type]⟩
  | Opcode.globalSet =>
      let global ← entry .global ctx.globals i.globalIndex
      if !global.mutable then throw (.immutableGlobal i.globalIndex)
      return ⟨[global.type], []⟩
  | Opcode.tableGet =>
      let table ← entry .table ctx.tables i.tableIndex
      return ⟨[.i32], [table.elem]⟩
  | Opcode.tableSet =>
      let table ← entry .table ctx.tables i.tableIndex
      return ⟨[.i32, table.elem], []⟩
  | Opcode.memorySize =>
      ctx.needMemory
      return ⟨[], [.i32]⟩
  | Opcode.memoryGrow =>
      ctx.needMemory
      return ⟨[.i32], [.i32]⟩
  | Opcode.refNull =>
      if !i.refNullType.isRef then throw (.notRefType op i.refNullType)
      return ⟨[], [i.refNullType]⟩
  | Opcode.refFunc =>
      let _ ← entry .function ctx.funcs i.refFuncIndex
      if !ctx.declared.contains i.refFuncIndex then throw (.undeclaredFunction i.refFuncIndex)
      return ⟨[], [.funcref]⟩
  | Opcode.misc => ctx.miscSignature op i.misc.1 i.misc.2
  | Opcode.vector => ctx.vectorSignature op i.vector
  | _ => throw (.unsupportedOpcode op)

end Context

end WasmMachine.Typing
