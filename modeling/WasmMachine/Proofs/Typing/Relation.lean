/-
# The typing relation

When code is well typed, said without an algorithm.  An instruction turns a stack
of operand types into another one and leaves alone what is below the operands that
it takes.  An operand type is a value type or the unknown one, which stands for an
operand that is never there: instructions that do not fall through may leave any
stack behind, and unknown operands are accepted for every type.

The body of a construct starts with its parameters alone on the stack and ends
with its results alone.  The labels in scope are the types that branches to them
carry, the innermost first.  Stacks are written with the topmost operand first.
-/

import Mathlib.Data.List.Forall2
import WasmMachine.Typing.Signature

namespace WasmMachine.Typing

/-- An operand of type `got` is accepted where `want` is asked for. The unknown type
is never asked for in a context of meaningful types. -/
def Fits (got want : ValType) : Prop := got = .unknown ∨ want = .unknown ∨ got = want

/-- Operands from the top of a stack are accepted for a list of types of which the last
one is on top. -/
def Accepts (types operands : List ValType) : Prop := List.Forall₂ Fits operands types.reverse

/-! ## Plain instructions -/

/-- A promise of alignment is not greater than the number of bytes moved. -/
def Aligned (align : UInt32) (width : Nat) : Prop := 2 ^ align.toNat ≤ width

/-- The signatures of the instructions behind the miscellaneous prefix. -/
inductive MiscTyped (ctx : Context) (operands : List UInt32) : MiscOp → FuncType → Prop
  | truncate {to64 from64 signed : Bool} :
      MiscTyped ctx operands (.truncate to64 from64 signed)
        ⟨[if from64 then .f64 else .f32], [if to64 then .i64 else .i32]⟩
  | memoryInit : (operands.getD 0 0).toNat < ctx.dataCount → ctx.memories ≠ [] →
      MiscTyped ctx operands .memoryInit ⟨[.i32, .i32, .i32], []⟩
  | dataDrop : (operands.getD 0 0).toNat < ctx.dataCount →
      MiscTyped ctx operands .dataDrop ⟨[], []⟩
  | memoryCopy : ctx.memories ≠ [] → MiscTyped ctx operands .memoryCopy ⟨[.i32, .i32, .i32], []⟩
  | memoryFill : ctx.memories ≠ [] → MiscTyped ctx operands .memoryFill ⟨[.i32, .i32, .i32], []⟩
  | tableInit {table : TableType} :
      ctx.elements[(operands.getD 0 0).toNat]? = some table.elem →
      ctx.tables[(operands.getD 1 0).toNat]? = some table →
      MiscTyped ctx operands .tableInit ⟨[.i32, .i32, .i32], []⟩
  | elemDrop : (operands.getD 0 0).toNat < ctx.elements.length →
      MiscTyped ctx operands .elemDrop ⟨[], []⟩
  | tableCopy {target source : TableType} :
      ctx.tables[(operands.getD 0 0).toNat]? = some target →
      ctx.tables[(operands.getD 1 0).toNat]? = some source → target.elem = source.elem →
      MiscTyped ctx operands .tableCopy ⟨[.i32, .i32, .i32], []⟩
  | tableGrow {table : TableType} : ctx.tables[(operands.getD 0 0).toNat]? = some table →
      MiscTyped ctx operands .tableGrow ⟨[table.elem, .i32], [.i32]⟩
  | tableSize : (operands.getD 0 0).toNat < ctx.tables.length →
      MiscTyped ctx operands .tableSize ⟨[], [.i32]⟩
  | tableFill {table : TableType} : ctx.tables[(operands.getD 0 0).toNat]? = some table →
      MiscTyped ctx operands .tableFill ⟨[.i32, table.elem, .i32], []⟩

/-- The signatures of the instructions behind the vector prefix. -/
inductive VectorTyped (ctx : Context) (imm : Instruction.VectorImmediate) :
    VectorOp → FuncType → Prop
  | load {op : VectorOp} {width : Nat} : op.access? = some (width, false) → ctx.memories ≠ [] →
      Aligned ((imm.arg.map (·.align)).getD 0) width → VectorTyped ctx imm op ⟨[.i32], [.v128]⟩
  | store {op : VectorOp} {width : Nat} : op.access? = some (width, true) → ctx.memories ≠ [] →
      Aligned ((imm.arg.map (·.align)).getD 0) width → VectorTyped ctx imm op ⟨[.i32, .v128], []⟩
  | lanes {op : VectorOp} : op.access? = none →
      (∀ shape, op.laneShape? = some shape → imm.lane.toNat < shape.width.count) →
      (op = .shuffle →
        ∃ indices, imm.bytes = some indices ∧ ∀ index ∈ indices.toBytes, index.toNat < 32) →
      VectorTyped ctx imm op ⟨op.signature.1, op.signature.2⟩

/-- The signatures of the instructions that have one. -/
inductive PlainTyped (ctx : Context) (i : Instruction) : FuncType → Prop
  | numeric {op : Numeric.Operation} : Numeric.Operation.ofOpcode i.opcode = some op →
      PlainTyped ctx i ⟨op.operands, [op.result]⟩
  | load {access : MemoryAccess} : MemoryAccess.ofOpcode i.opcode = some access →
      access.store = false → ctx.memories ≠ [] → Aligned i.memArg.align access.width →
      PlainTyped ctx i ⟨[.i32], [access.type]⟩
  | store {access : MemoryAccess} : MemoryAccess.ofOpcode i.opcode = some access →
      access.store = true → ctx.memories ≠ [] → Aligned i.memArg.align access.width →
      PlainTyped ctx i ⟨[.i32, access.type], []⟩
  | i32Const : i.opcode = Opcode.i32Const → PlainTyped ctx i ⟨[], [.i32]⟩
  | i64Const : i.opcode = Opcode.i64Const → PlainTyped ctx i ⟨[], [.i64]⟩
  | f32Const : i.opcode = Opcode.f32Const → PlainTyped ctx i ⟨[], [.f32]⟩
  | f64Const : i.opcode = Opcode.f64Const → PlainTyped ctx i ⟨[], [.f64]⟩
  | nop : i.opcode = Opcode.nop → PlainTyped ctx i ⟨[], []⟩
  | call {type : FuncType} : i.opcode = Opcode.call → ctx.funcs[i.callIndex.toNat]? = some type →
      PlainTyped ctx i type
  | callIndirect {table : TableType} {type : FuncType} : i.opcode = Opcode.callIndirect →
      ctx.tables[i.callIndirect.2.toNat]? = some table → table.elem = .funcref →
      ctx.types[i.callIndirect.1.toNat]? = some type →
      PlainTyped ctx i ⟨type.params ++ [.i32], type.results⟩
  | selectTyped {type : ValType} : i.opcode = Opcode.selectTyped → i.selectTypes = [type] →
      PlainTyped ctx i ⟨[type, type, .i32], [type]⟩
  | localGet {type : ValType} : i.opcode = Opcode.localGet →
      ctx.locals[i.localIndex.toNat]? = some type → PlainTyped ctx i ⟨[], [type]⟩
  | localSet {type : ValType} : i.opcode = Opcode.localSet →
      ctx.locals[i.localIndex.toNat]? = some type → PlainTyped ctx i ⟨[type], []⟩
  | localTee {type : ValType} : i.opcode = Opcode.localTee →
      ctx.locals[i.localIndex.toNat]? = some type → PlainTyped ctx i ⟨[type], [type]⟩
  | globalGet {global : GlobalType} : i.opcode = Opcode.globalGet →
      ctx.globals[i.globalIndex.toNat]? = some global → PlainTyped ctx i ⟨[], [global.type]⟩
  | globalSet {global : GlobalType} : i.opcode = Opcode.globalSet →
      ctx.globals[i.globalIndex.toNat]? = some global → global.mutable = true →
      PlainTyped ctx i ⟨[global.type], []⟩
  | tableGet {table : TableType} : i.opcode = Opcode.tableGet →
      ctx.tables[i.tableIndex.toNat]? = some table → PlainTyped ctx i ⟨[.i32], [table.elem]⟩
  | tableSet {table : TableType} : i.opcode = Opcode.tableSet →
      ctx.tables[i.tableIndex.toNat]? = some table → PlainTyped ctx i ⟨[.i32, table.elem], []⟩
  | memorySize : i.opcode = Opcode.memorySize → ctx.memories ≠ [] → PlainTyped ctx i ⟨[], [.i32]⟩
  | memoryGrow : i.opcode = Opcode.memoryGrow → ctx.memories ≠ [] →
      PlainTyped ctx i ⟨[.i32], [.i32]⟩
  | refNull : i.opcode = Opcode.refNull → i.refNullType.isRef →
      PlainTyped ctx i ⟨[], [i.refNullType]⟩
  | refFunc : i.opcode = Opcode.refFunc → i.refFuncIndex.toNat < ctx.funcs.length →
      i.refFuncIndex ∈ ctx.declared → PlainTyped ctx i ⟨[], [.funcref]⟩
  | misc {op : MiscOp} {type : FuncType} : i.opcode = Opcode.misc →
      MiscOp.ofCode i.misc.1 = some op → MiscTyped ctx i.misc.2 op type → PlainTyped ctx i type
  | vector {op : VectorOp} {type : FuncType} : i.opcode = Opcode.vector →
      VectorOp.ofCode i.vector.sub = some op → VectorTyped ctx i.vector op type →
      PlainTyped ctx i type

/-! ## Instructions and bodies -/

mutual

/-- In front of an instruction the stack is `before`, and behind it `after`. -/
inductive Typed (ctx : Context) :
    List (List ValType) → Instruction → List ValType → List ValType → Prop
  | plain {labels : List (List ValType)} {i : Instruction} {type : FuncType}
      {operands below : List ValType} :
      PlainTyped ctx i type → Accepts type.params operands →
      Typed ctx labels i (operands ++ below) (type.results.reverse ++ below)
  | drop {labels : List (List ValType)} {i : Instruction} {type : ValType}
      {below : List ValType} :
      i.opcode = Opcode.drop → Typed ctx labels i (type :: below) below
  | select {labels : List (List ValType)} {i : Instruction} {type condition upper lower : ValType}
      {below : List ValType} :
      i.opcode = Opcode.select → type.isRef = false → Fits condition .i32 →
      upper = .unknown ∨ upper = type → lower = .unknown ∨ lower = type →
      Typed ctx labels i (condition :: upper :: lower :: below) (type :: below)
  | refIsNull {labels : List (List ValType)} {i : Instruction} {type : ValType}
      {below : List ValType} :
      i.opcode = Opcode.refIsNull → type = .unknown ∨ type.isRef →
      Typed ctx labels i (type :: below) (.i32 :: below)
  | unreachable {labels : List (List ValType)} {i : Instruction} {before after : List ValType} :
      i.opcode = Opcode.unreachable → Typed ctx labels i before after
  | br {labels : List (List ValType)} {i : Instruction} {types operands below : List ValType}
      {after : List ValType} :
      i.opcode = Opcode.br → labels[i.branchLabel.toNat]? = some types →
      Accepts types operands → Typed ctx labels i (operands ++ below) after
  | brIf {labels : List (List ValType)} {i : Instruction} {condition : ValType}
      {types operands below : List ValType} :
      i.opcode = Opcode.brIf → labels[i.branchLabel.toNat]? = some types →
      Fits condition .i32 → Accepts types operands →
      Typed ctx labels i (condition :: (operands ++ below)) (types.reverse ++ below)
  | brTable {labels : List (List ValType)} {i : Instruction} {condition : ValType}
      {types operands below after : List ValType} :
      i.opcode = Opcode.brTable → labels[i.branchTable.2.toNat]? = some types →
      Fits condition .i32 → Accepts types operands →
      (∀ label ∈ i.branchTable.1, ∃ others, labels[label.toNat]? = some others ∧
        others.length = types.length ∧ Accepts others operands) →
      Typed ctx labels i (condition :: (operands ++ below)) after
  | ret {labels : List (List ValType)} {i : Instruction} {operands below after : List ValType} :
      i.opcode = Opcode.ret → Accepts ctx.results operands →
      Typed ctx labels i (operands ++ below) after
  | block {labels : List (List ValType)} {i : Instruction} {type : FuncType}
      {operands below : List ValType} :
      i.opcode = Opcode.block →
      BlockType.signature? ctx.types (i.blockType?.getD 0) = some type →
      Accepts type.params operands → BodyTyped ctx (type.results :: labels) type i.body →
      Typed ctx labels i (operands ++ below) (type.results.reverse ++ below)
  | loop {labels : List (List ValType)} {i : Instruction} {type : FuncType}
      {operands below : List ValType} :
      i.opcode = Opcode.loop →
      BlockType.signature? ctx.types (i.blockType?.getD 0) = some type →
      Accepts type.params operands → BodyTyped ctx (type.params :: labels) type i.body →
      Typed ctx labels i (operands ++ below) (type.results.reverse ++ below)
  | ifElse {labels : List (List ValType)} {i : Instruction} {type : FuncType}
      {condition : ValType} {operands below : List ValType} :
      i.opcode = Opcode.ifElse →
      BlockType.signature? ctx.types (i.blockType?.getD 0) = some type →
      Fits condition .i32 → Accepts type.params operands →
      BodyTyped ctx (type.results :: labels) type i.body →
      BodyTyped ctx (type.results :: labels) type i.orElse →
      Typed ctx labels i (condition :: (operands ++ below)) (type.results.reverse ++ below)

/-- Instructions one after the other. -/
inductive SequenceTyped (ctx : Context) :
    List (List ValType) → List Instruction → List ValType → List ValType → Prop
  | nil {labels : List (List ValType)} {stack : List ValType} :
      SequenceTyped ctx labels [] stack stack
  | cons {labels : List (List ValType)} {i : Instruction} {rest : List Instruction}
      {before middle after : List ValType} :
      Typed ctx labels i before middle → SequenceTyped ctx labels rest middle after →
      SequenceTyped ctx labels (i :: rest) before after

/-- A body that takes the parameters of a signature to its results. -/
inductive BodyTyped (ctx : Context) :
    List (List ValType) → FuncType → List Instruction → Prop
  | intro {labels : List (List ValType)} {type : FuncType} {body : List Instruction}
      {operands : List ValType} :
      SequenceTyped ctx labels body type.params.reverse operands →
      Accepts type.results operands → BodyTyped ctx labels type body

end

/-- A function body gives the results of the function, to which the outermost label
leads as well. -/
def FunctionTyped (ctx : Context) (body : List Instruction) : Prop :=
  BodyTyped ctx [ctx.results] ⟨[], ctx.results⟩ body

end WasmMachine.Typing
