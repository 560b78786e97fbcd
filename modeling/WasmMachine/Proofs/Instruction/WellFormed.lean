/-
# Instruction trees that a binary can hold

A tree built by hand may pair any opcode with any immediate.  The trees that come
from bytes are the well-formed ones: each opcode is a known one and carries the
immediate that belongs to it, with every field in the range the binary format
gives it, and only constructs have nested instructions.  How deep constructs are
nested is counted apart.
-/

import WasmMachine.Instruction.Basic
import WasmMachine.Instruction.Families
import WasmMachine.Instruction.Opcode
import WasmMachine.Numeric.Operation
import WasmMachine.Vector.Operation

namespace WasmMachine

/-- Block types that have a spelling: the shorthands and the type indices. -/
def BlockType.spellable (type : BlockType) : Bool :=
  0 ≤ type.toInt || type.shorthand?.isSome

/-- Memory arguments that have a spelling. The format writes an alignment below
64 and an offset of 32 bits. -/
def MemArg.spellable (arg : MemArg) : Bool :=
  arg.align < 64 && decide (arg.offset.toNat < 2 ^ 32)

/-- The number of lanes an instruction can choose from. -/
def VectorOp.laneCount (op : VectorOp) : Nat := (op.laneShape?.map (·.width.count)).getD 0

/-- Whether fields are those of a sort of vector instruction with so many lanes. A
field that the sort does not have is zero or absent. -/
def VectorImmediateSort.allows (lanes : Nat) (lane : UInt8) (arg : Option MemArg)
    (bytes : Option V128) : VectorImmediateSort → Bool
  | .memArg => lane == 0 && arg.any MemArg.spellable && bytes.isNone
  | .bytes => lane == 0 && arg.isNone && bytes.isSome
  | .lane => decide (lane.toNat < lanes) && arg.isNone && bytes.isNone
  | .nothing => lane == 0 && arg.isNone && bytes.isNone

/-- Whether the fields behind a vector instruction are those it asks for. -/
def VectorOp.takes (op : VectorOp) (lane : UInt8) (arg : Option MemArg) (bytes : Option V128) :
    Bool :=
  op.immediate.allows op.laneCount lane arg bytes

namespace Immediate

/-- Whether an immediate, or its absence, is what an opcode asks for. The block
types of constructs are left out. -/
def suits (op : UInt8) : Option Immediate → Bool
  | none =>
      op == Opcode.unreachable || op == Opcode.nop || op == Opcode.ret || op == Opcode.drop
        || op == Opcode.select || op == Opcode.refIsNull
        || (Numeric.Operation.ofOpcode op).isSome
  | some (.block _) => false
  | some (.branch _) => op == Opcode.br || op == Opcode.brIf
  | some (.branchTable labels _) => op == Opcode.brTable && decide (labels.length < 2 ^ 32)
  | some (.call _) => op == Opcode.call
  | some (.callIndirect _ _) => op == Opcode.callIndirect
  | some (.localIndex _) =>
      op == Opcode.localGet || op == Opcode.localSet || op == Opcode.localTee
  | some (.globalIndex _) => op == Opcode.globalGet || op == Opcode.globalSet
  | some (.tableIndex _) => op == Opcode.tableGet || op == Opcode.tableSet
  | some (.memoryIndex _) => op == Opcode.memorySize || op == Opcode.memoryGrow
  | some (.memory arg) => (MemoryAccess.ofOpcode op).isSome && arg.spellable
  | some (.i32 _) => op == Opcode.i32Const
  | some (.i64 _) => op == Opcode.i64Const
  | some (.f32 _) => op == Opcode.f32Const
  | some (.f64 _) => op == Opcode.f64Const
  | some (.refNull type) => op == Opcode.refNull && type.isRef
  | some (.refFunc _) => op == Opcode.refFunc
  | some (.select types) =>
      op == Opcode.selectTyped && types.length == 1 && types.all ValType.isValid
  | some (.misc sub operands) =>
      op == Opcode.misc &&
        (MiscOp.ofCode sub).any fun misc => operands.length == misc.operandCount
  | some (.simd sub lane arg bytes) =>
      op == Opcode.vector && (VectorOp.ofCode sub).any fun vector => vector.takes lane arg bytes

end Immediate

/-- The opcodes that have nested instructions. -/
def Opcode.isConstruct (op : UInt8) : Bool :=
  op == Opcode.block || op == Opcode.loop || op == Opcode.ifElse

namespace Instruction

mutual

/-- Whether a tree could have come from a binary. -/
def wellFormed : Instruction → Bool
  | .node op imm body orElse =>
      if Opcode.isConstruct op then
        (match imm with
          | some (.block type) => type.spellable
          | _ => false)
          && allWellFormed body && allWellFormed orElse
          && (op == Opcode.ifElse || orElse.isEmpty)
      else Immediate.suits op imm && body.isEmpty && orElse.isEmpty

/-- Whether all trees of a sequence could have come from a binary. -/
def allWellFormed : List Instruction → Bool
  | [] => true
  | i :: rest => wellFormed i && allWellFormed rest

end

mutual

/-- The number of constructs on the longest path into a tree. -/
def depth : Instruction → Nat
  | .node op _ body orElse =>
      if Opcode.isConstruct op then 1 + max (depthOf body) (depthOf orElse) else 0

/-- The greatest depth of a tree in a sequence. -/
def depthOf : List Instruction → Nat
  | [] => 0
  | i :: rest => max (depth i) (depthOf rest)

end

theorem wellFormed_construct {op : UInt8} {imm : Option Immediate} {body orElse : List Instruction}
    (construct : Opcode.isConstruct op) :
    wellFormed (.node op imm body orElse) ↔
      (∃ type, imm = some (.block type) ∧ type.spellable) ∧ allWellFormed body ∧
        allWellFormed orElse ∧ (op = Opcode.ifElse ∨ orElse = []) := by
  unfold wellFormed
  rw [if_pos construct]
  split
  · simp [and_assoc]
  · next other =>
      simp only [Bool.false_and, Bool.false_eq_true, false_iff]
      rintro ⟨⟨type, equal, -⟩, -⟩
      exact other type equal

theorem wellFormed_plain {op : UInt8} {imm : Option Immediate} {body orElse : List Instruction}
    (plain : ¬ Opcode.isConstruct op) :
    wellFormed (.node op imm body orElse) ↔
      Immediate.suits op imm ∧ body = [] ∧ orElse = [] := by
  unfold wellFormed
  rw [if_neg plain]
  simp [and_assoc]

theorem wellFormed_of_mem {is : List Instruction} (wellFormed : allWellFormed is)
    {i : Instruction} (mem : i ∈ is) : i.wellFormed := by
  induction is with
  | nil => cases mem
  | cons first rest ih =>
      rw [allWellFormed, Bool.and_eq_true] at wellFormed
      rcases List.mem_cons.mp mem with rfl | mem
      · exact wellFormed.1
      · exact ih wellFormed.2 mem

end Instruction

/-- The reference types are value types. -/
theorem ValType.isValid_of_isRef {type : ValType} (reference : type.isRef) : type.isValid := by
  unfold ValType.isRef at reference
  unfold ValType.isValid
  rw [Bool.or_eq_true] at reference ⊢
  rcases reference with func | external
  · rw [func]
    simp
  · exact .inr external

end WasmMachine
