/-
# What a plain instruction sees

A plain instruction works on the operands at hand, the frame of the running
function and the store.  It cannot reach below the operands at hand, because
nothing else of the stack is in its scope.
-/

import WasmMachine.Machine.Options
import WasmMachine.Store.Basic
import WasmMachine.Trap

namespace WasmMachine

/-- The activation of a function: where its code belongs to, its local variables
and the number of its results. -/
structure Frame where
  home : Option InstanceId
  locals : Array Value
  arity : Nat

/-- The operands at hand, topmost first, the running frame and the store. -/
structure Scope where
  operands : List Value
  frame : Option Frame
  store : Store

/-- An action in a scope. It may trap; the scope it leaves behind is known in both
cases. -/
abbrev Step := EStateM Trap Scope

namespace Step

/-- Put a value on top. -/
def push (v : Value) : Step Unit := modify fun s => { s with operands := v :: s.operands }

/-- Take the topmost operand. -/
def popValue : Step Value := fun s =>
  match s with
  | ⟨v :: rest, frame, store⟩ => .ok v ⟨rest, frame, store⟩
  | s => .error .operands s

/-- Take a 32-bit integer. -/
def popI32 : Step UInt32 := fun s =>
  match s with
  | ⟨.i32 bits :: rest, frame, store⟩ => .ok bits ⟨rest, frame, store⟩
  | s => .error .operands s

/-- Take a reference. -/
def popRef : Step Ref := fun s =>
  match s with
  | ⟨.ref r :: rest, frame, store⟩ => .ok r ⟨rest, frame, store⟩
  | s => .error .operands s

/-- Take three 32-bit integers, given in the order they were pushed. -/
def popThree : Step (UInt32 × UInt32 × UInt32) := fun s =>
  match s with
  | ⟨.i32 c :: .i32 b :: .i32 a :: rest, frame, store⟩ => .ok (a, b, c) ⟨rest, frame, store⟩
  | s => .error .operands s

/-- Run an operation on the operands. -/
def onOperands (operation : List Value → Except Trap (List Value)) : Step Unit := fun s =>
  match s with
  | ⟨operands, frame, store⟩ =>
      match operation operands with
      | .ok operands => .ok () ⟨operands, frame, store⟩
      | .error trap => .error trap ⟨operands, frame, store⟩

/-- The instance that the running code belongs to. -/
def home : Step ModuleInstance := do
  let s ← get
  match s.frame.bind (·.home) with
  | none => throw .noFrame
  | some id =>
      match s.store.instances[id]? with
      | some inst => return inst
      | none => throw .noFrame

/-- The address behind an index of the running code's instance. -/
def address (space : ModuleInstance → Array Addr) (missing : UInt32 → Trap) (index : UInt32) :
    Step Addr := do
  match (space (← home))[index.toNat]? with
  | some addr => return addr
  | none => throw (missing index)

/-- The address of a function. -/
def funcAddress : UInt32 → Step Addr := address (·.funcs) .noFunction
/-- The address of a table. -/
def tableAddress : UInt32 → Step Addr := address (·.tables) .noTable
/-- The address of a memory. -/
def memoryAddress : UInt32 → Step Addr := address (·.memories) .noMemory
/-- The address of a global. -/
def globalAddress : UInt32 → Step Addr := address (·.globals) .noGlobal
/-- The address of an element segment. -/
def elemAddress : UInt32 → Step Addr := address (·.elems) .noElement
/-- The address of a data segment. -/
def dataAddress : UInt32 → Step Addr := address (·.datas) .noData

/-- What a list of the store holds at an address. -/
def fetch {α : Type} (space : Store → Array α) (missing : Trap) (addr : Addr) : Step α := do
  match (space (← get).store)[addr]? with
  | some item => return item
  | none => throw missing

/-- Change the store. -/
def modifyStore (f : Store → Store) : Step Unit := modify fun s => { s with store := f s.store }

end Step

end WasmMachine
