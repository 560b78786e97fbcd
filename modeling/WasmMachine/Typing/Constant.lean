/-
# Constant expressions

The first values of globals, the offsets of segments and the entries of element
segments are sequences of constants.  Such a sequence is well typed when it
produces exactly one value, of the wanted type.
-/

import WasmMachine.Typing.Signature

namespace WasmMachine.Typing

/-- The type of the value that one instruction of a constant expression produces.
Only the first `readable` globals may be read, and only immutable ones. -/
def constantType (ctx : Context) (readable : Nat) (i : Instruction) : Except Violation ValType :=
  match i.opcode with
  | Opcode.i32Const => .ok .i32
  | Opcode.i64Const => .ok .i64
  | Opcode.f32Const => .ok .f32
  | Opcode.f64Const => .ok .f64
  | Opcode.refNull => .ok i.refNullType
  | Opcode.refFunc => do
      let _ ← entry .function ctx.funcs i.refFuncIndex
      return .funcref
  | Opcode.globalGet =>
      let index := i.globalIndex
      if readable ≤ index.toNat then .error (.unknownIndex .global index)
      else
        match ctx.globals[index.toNat]? with
        | none => .error (.outside .global index.toNat)
        | some global =>
            if global.mutable then .error (.constantReadsMutable index) else .ok global.type
  | Opcode.vector =>
      if VectorOp.ofCode i.vector.sub = some .const then .ok .v128
      else .error (.constantVector i.vector.sub)
  | op => .error (.constantOpcode op)

/-- Check that a constant expression produces one value of type `want`. -/
def checkConstant (ctx : Context) (expr : List Instruction) (want : ValType) (readable : Nat) :
    Except Violation Unit := do
  let types ← expr.mapM (constantType ctx readable)
  if types ≠ [want] then throw (.constantResult Opcode.close want types)

end WasmMachine.Typing
