/-
# Variables and references

Local and global variables, references, and the instructions that only move
operands.
-/

import WasmMachine.Machine.Scope

namespace WasmMachine.Step

/-- Check that the running frame has a local variable of an index. -/
def checkLocal (index : UInt32) : Step Unit := do
  match (← get).frame with
  | none => throw .noFrame
  | some frame => if frame.locals.size ≤ index.toNat then throw (.noLocal index)

/-- Read a local variable. -/
def localGet (index : UInt32) : Step Unit := do
  match (← get).frame with
  | none => throw .noFrame
  | some frame =>
      match frame.locals[index.toNat]? with
      | some v => push v
      | none => throw (.noLocal index)

/-- Write a local variable of the running frame. -/
def writeLocal (index : UInt32) (v : Value) : Step Unit :=
  modify fun s =>
    { s with
      frame := s.frame.map fun f => { f with locals := f.locals.setIfInBounds index.toNat v } }

/-- Take an operand into a local variable. -/
def localSet (index : UInt32) : Step Unit := do
  checkLocal index
  writeLocal index (← popValue)

/-- Copy an operand into a local variable. -/
def localTee (index : UInt32) : Step Unit := do
  checkLocal index
  let v ← popValue
  writeLocal index v
  push v

/-- Read a global. -/
def globalGet (index : UInt32) : Step Unit := do
  let global ← fetch (·.globals) (.noGlobal index) (← globalAddress index)
  push global.value

/-- Take an operand into a global. The operand must have the global's type, and
the global must be mutable. -/
def globalSet (index : UInt32) : Step Unit := do
  let addr ← globalAddress index
  let global ← fetch (·.globals) (.noGlobal index) addr
  let v ← popValue
  if v.type ≠ global.type.type then throw .operands
  if !global.type.mutable then throw .immutableGlobal
  modifyStore (·.writeGlobal addr v)

/-- Test a reference for null. -/
def refIsNull : Step Unit := do
  let r ← popRef
  push (.ofBool r.isNull)

/-- A reference to a function of the running code's instance. -/
def refFunc (index : UInt32) : Step Unit := do
  push (.ref (.func (← funcAddress index)))

/-- Keep one of two operands, by a condition on top of them. -/
def select (order : SelectOrder) : Step Unit := do
  let condition ← popI32
  let top ← popValue
  let bottom ← popValue
  let (first, second) := if order = .bottomOnTrue then (bottom, top) else (top, bottom)
  push (if condition ≠ 0 then first else second)

end WasmMachine.Step
