/-
# Evaluating constant expressions

Each instruction of a constant expression gives a value; the expression must give
exactly one.
-/

import WasmMachine.Link.Error

namespace WasmMachine.Store

/-- The value of one instruction of a constant expression. Functions and globals
are those that the instance has so far. -/
def constantValue (s : Store) (inst : ModuleInstance) (i : Instruction) :
    Except ConstantProblem Value :=
  match i.opcode with
  | Opcode.i32Const => .ok (.i32 i.i32Bits)
  | Opcode.i64Const => .ok (.i64 i.i64Bits)
  | Opcode.f32Const => .ok (.f32 i.f32Bits)
  | Opcode.f64Const => .ok (.f64 i.f64Bits)
  | Opcode.refNull => .ok (.ref (.null i.refNullType))
  | Opcode.refFunc =>
      match inst.funcs[i.refFuncIndex.toNat]? with
      | some addr => .ok (.ref (.func addr))
      | none => .error (.func i.refFuncIndex)
  | Opcode.globalGet =>
      match (inst.globals[i.globalIndex.toNat]?).bind fun addr => s.globals[addr]? with
      | some g => .ok g.value
      | none => .error (.global i.globalIndex)
  | Opcode.vector =>
      match VectorOp.ofCode i.vector.sub, i.vector.bytes with
      | some .const, some v => .ok (.v128 v)
      | _, _ => .error .vector
  | op => .error (.opcode op)

/-- The value of a constant expression. -/
def constant (s : Store) (inst : ModuleInstance) (expr : List Instruction) :
    Except ConstantProblem Value := do
  match ← expr.mapM (s.constantValue inst) with
  | [v] => return v
  | values => throw (.count values.length)

/-- The value of the offset of a segment. -/
def offset (s : Store) (inst : ModuleInstance) (expr : List Instruction) :
    Except ConstantProblem UInt32 := do
  match ← s.constant inst expr with
  | .i32 bits => return bits
  | v => throw (.offsetType v.type)

end WasmMachine.Store
