/-
# Instructions

An instruction is an opcode, an optional immediate and, for the structured
constructs, the nested instructions.  Opcode and immediate are independent
here: a tree built by hand may leave an immediate out or carry one of another
sort.  The readers of immediates below say what then holds: an immediate that
is not of the expected sort counts as the zero immediate of that sort.
-/

import WasmMachine.Types
import WasmMachine.Vector.Lanes

namespace WasmMachine

/-- The immediate of a load or store: the logarithm of the promised alignment
and the constant part of the address. -/
structure MemArg where
  align : UInt32
  offset : UInt64
  deriving DecidableEq, Repr, Inhabited

/-- What follows an opcode. Numbers of either sign are held as bit patterns. -/
inductive Immediate
  | block (type : BlockType)
  | branch (label : UInt32)
  | branchTable (labels : List UInt32) (fallback : UInt32)
  | call (func : UInt32)
  | callIndirect (type table : UInt32)
  | localIndex (index : UInt32)
  | globalIndex (index : UInt32)
  | tableIndex (index : UInt32)
  | memoryIndex (index : UInt32)
  | memory (arg : MemArg)
  | i32 (bits : UInt32)
  | i64 (bits : UInt64)
  | f32 (bits : UInt32)
  | f64 (bits : UInt64)
  | refNull (type : ValType)
  | refFunc (func : UInt32)
  | select (types : List ValType)
  | misc (sub : UInt32) (operands : List UInt32)
  | simd (sub : UInt32) (lane : UInt8) (arg : Option MemArg) (bytes : Option V128)
  deriving DecidableEq, Repr

/-- An instruction tree. `body` holds the instructions of a block or loop and
the first arm of an `if`, `orElse` the other arm; neither holds the byte that
ends it. -/
inductive Instruction
  | node (opcode : UInt8) (immediate : Option Immediate) (body orElse : List Instruction)
  deriving Inhabited

namespace Instruction

/-- The opcode byte. -/
def opcode : Instruction → UInt8
  | .node op _ _ _ => op

/-- The immediate, if there is one. -/
def immediate : Instruction → Option Immediate
  | .node _ imm _ _ => imm

/-- The nested instructions. -/
def body : Instruction → List Instruction
  | .node _ _ body _ => body

/-- The instructions of the other arm. -/
def orElse : Instruction → List Instruction
  | .node _ _ _ arm => arm

/-- An instruction without nested instructions. -/
def plain (op : UInt8) (imm : Option Immediate) : Instruction := .node op imm [] []

/-- The block type, where there is one. -/
def blockType? (i : Instruction) : Option BlockType :=
  match i.immediate with
  | some (.block type) => some type
  | _ => none

/-- The label of a branch. -/
def branchLabel (i : Instruction) : UInt32 :=
  match i.immediate with
  | some (.branch label) => label
  | _ => 0

/-- The labels of a branch table and its fallback. -/
def branchTable (i : Instruction) : List UInt32 × UInt32 :=
  match i.immediate with
  | some (.branchTable labels fallback) => (labels, fallback)
  | _ => ([], 0)

/-- The function that a call names. -/
def callIndex (i : Instruction) : UInt32 :=
  match i.immediate with
  | some (.call func) => func
  | _ => 0

/-- The type and the table of an indirect call. -/
def callIndirect (i : Instruction) : UInt32 × UInt32 :=
  match i.immediate with
  | some (.callIndirect type table) => (type, table)
  | _ => (0, 0)

/-- The index of a local variable. -/
def localIndex (i : Instruction) : UInt32 :=
  match i.immediate with
  | some (.localIndex index) => index
  | _ => 0

/-- The index of a global. -/
def globalIndex (i : Instruction) : UInt32 :=
  match i.immediate with
  | some (.globalIndex index) => index
  | _ => 0

/-- The index of a table. -/
def tableIndex (i : Instruction) : UInt32 :=
  match i.immediate with
  | some (.tableIndex index) => index
  | _ => 0

/-- The alignment and offset of a memory access. -/
def memArg (i : Instruction) : MemArg :=
  match i.immediate with
  | some (.memory arg) => arg
  | _ => ⟨0, 0⟩

/-- The bits of a 32-bit integer constant. -/
def i32Bits (i : Instruction) : UInt32 :=
  match i.immediate with
  | some (.i32 bits) => bits
  | _ => 0

/-- The bits of a 64-bit integer constant. -/
def i64Bits (i : Instruction) : UInt64 :=
  match i.immediate with
  | some (.i64 bits) => bits
  | _ => 0

/-- The bits of a 32-bit float constant. -/
def f32Bits (i : Instruction) : UInt32 :=
  match i.immediate with
  | some (.f32 bits) => bits
  | _ => 0

/-- The bits of a 64-bit float constant. -/
def f64Bits (i : Instruction) : UInt64 :=
  match i.immediate with
  | some (.f64 bits) => bits
  | _ => 0

/-- The type of a null reference. -/
def refNullType (i : Instruction) : ValType :=
  match i.immediate with
  | some (.refNull type) => type
  | _ => .unknown

/-- The function that a reference names. -/
def refFuncIndex (i : Instruction) : UInt32 :=
  match i.immediate with
  | some (.refFunc func) => func
  | _ => 0

/-- The types of a typed select. -/
def selectTypes (i : Instruction) : List ValType :=
  match i.immediate with
  | some (.select types) => types
  | _ => []

/-- The code and the operands behind the miscellaneous opcode. -/
def misc (i : Instruction) : UInt32 × List UInt32 :=
  match i.immediate with
  | some (.misc sub operands) => (sub, operands)
  | _ => (0, [])

/-- The fields behind the vector opcode. -/
structure VectorImmediate where
  sub : UInt32
  lane : UInt8
  arg : Option MemArg
  bytes : Option V128

/-- What follows the vector opcode. -/
def vector (i : Instruction) : VectorImmediate :=
  match i.immediate with
  | some (.simd sub lane arg bytes) => ⟨sub, lane, arg, bytes⟩
  | _ => ⟨0, 0, none, none⟩

mutual

/-- The number of instructions in a tree, itself and the nested ones. -/
def size : Instruction → Nat
  | .node _ _ body orElse => 1 + sizes body + sizes orElse

/-- The number of instructions in a sequence, nested ones included. -/
def sizes : List Instruction → Nat
  | [] => 0
  | i :: rest => size i + sizes rest

end

mutual

/-- The deepest level that holds an instruction, when this one is at `level`. -/
def deepest (level : Nat) : Instruction → Nat
  | .node _ _ body orElse =>
      max level (max (deepestOf (level + 1) body) (deepestOf (level + 1) orElse))

/-- The deepest level that holds an instruction of a sequence at `level`, and 0
for an empty sequence. -/
def deepestOf (level : Nat) : List Instruction → Nat
  | [] => 0
  | i :: rest => max (deepest level i) (deepestOf level rest)

end

end Instruction

end WasmMachine
