/-
# The machine

A machine is a store, a stack, the running frame and the number of active calls.
It also keeps what host functions recorded and the names under which they can
call instances.
-/

import WasmMachine.Machine.Plain
import WasmMachine.Machine.Stack
import WasmMachine.Store.View

namespace WasmMachine

/-- A machine between two instructions. -/
structure Machine where
  store : Store := {}
  stack : Stack := {}
  frame : Option Frame := none
  depth : Nat := 0
  options : Options := {}
  names : List (String × InstanceId) := []
  records : List HostRecord := []

/-- A call that the machine refuses before it runs anything. -/
inductive Refusal
  | address
  | arguments (args : List (Option Value)) (params : List ValType)

/-- A refusal as a report. -/
def Refusal.toFault : Refusal → Fault
  | .address => .invalidInput Phase.runtime "function address out of range"
  | .arguments args params =>
      .invalidInput Phase.runtime
        ("arguments " ++ Value.listText args ++ " do not match parameters "
          ++ ValType.listText params)

/-- Why the machine stopped. Running out of fuel says nothing about the program:
with more fuel it may well go on. -/
inductive Stop
  | trap (t : Trap)
  | refused (r : Refusal)
  | outOfFuel

/-- The fault behind a stop; there is none when only the fuel was used up. -/
def Stop.fault? : Stop → Option Fault
  | .trap t => some t.toFault
  | .refused r => some r.toFault
  | .outOfFuel => none

/-- How a sequence of instructions ended: at its end, by a return, or by a branch
to the label at a depth. -/
inductive Exit
  | normal
  | returned
  | branch (depth : Nat)
  deriving DecidableEq, Repr

/-- An action of the machine. The machine it leaves behind is known also when it
stops. -/
abbrev Run := EStateM Stop Machine

namespace Run

/-- Stop with a trap. -/
def trap {α : Type} (t : Trap) : Run α := throw (.trap t)

/-- Run a step in the scope of the running code. -/
def step {α : Type} (action : Step α) : Run α := fun m =>
  match m with
  | ⟨store, ⟨operands, levels, base, h⟩, frame, depth, options, names, records⟩ =>
      match action ⟨operands, frame, store⟩ with
      | .ok a ⟨operands, frame, store⟩ =>
          .ok a ⟨store, ⟨operands, levels, base, h⟩, frame, depth, options, names, records⟩
      | .error t ⟨operands, frame, store⟩ =>
          .error (.trap t)
            ⟨store, ⟨operands, levels, base, h⟩, frame, depth, options, names, records⟩

/-- The height of the stack. -/
def height : Run Nat := do return (← get).stack.length

/-- Change the stack. -/
def modifyStack (f : Stack → Stack) : Run Unit := modify fun m => { m with stack := f m.stack }

/-- Take the topmost `n` values, in the order they were pushed. -/
def popValues (n : Nat) : Run (List Value) := do
  match (← get).stack.popValues? n with
  | some (values, stack) =>
      modifyStack fun _ => stack
      return values
  | none => trap .operands

/-- Drop everything from a height up but keep the topmost `arity` values. -/
def unwind (height arity : Nat) : Run Unit := do
  let values ← popValues arity
  if (← Run.height) < height then trap .operands
  modifyStack fun s => (s.truncate height).pushValues values

/-- Remove the label at a position from below its `count` results. -/
def endLabel (position count : Nat) : Run Unit := do
  let values ← popValues count
  if ((← get).stack.labelAtPosition? position).isNone then trap .operands
  modifyStack fun s => (s.truncate position).pushValues values

/-- Branch to the label at a depth: its values replace everything down to and
including the label. -/
def branch (depth : Nat) : Run Exit := do
  match (← get).stack.label? depth with
  | none => trap (.unknownLabel depth)
  | some (label, position) =>
      unwind position label.arity
      return .branch depth

/-- Leave the function: its results replace everything down to and including its
frame. -/
def leave : Run Exit := do
  match (← get).stack.frame? with
  | none => trap .noFrame
  | some ((arity, _), position) =>
      unwind position arity
      return .returned

/-- The label that an index picks from a branch table. -/
def branchTarget (labels : List UInt32) (fallback index : UInt32) : UInt32 :=
  labels[index.toNat]?.getD fallback

/-- The signature of a block among the types of the running code. -/
def blockSignature (i : Instruction) : Run FuncType := do
  match i.blockType? with
  | none => trap .missingBlockType
  | some type =>
      let m ← get
      let inst := (m.frame.bind (·.home)).bind fun id => m.store.instances[id]?
      match BlockType.signature? ((inst.map (·.types)).getD []) type with
      | some signature => return signature
      | none => trap (.invalidBlockType type)

/-- The function of the store that a direct call names. -/
def callTarget (index : UInt32) : Step Addr := do
  match (← Step.home).funcs[index.toNat]? with
  | some addr => return addr
  | none => throw (.undefinedFunction index.toNat)

/-- The function of the store that an indirect call finds in a table. -/
def indirectTarget (typeIndex tableIndex : UInt32) : Step Addr := do
  match (← Step.home).types[typeIndex.toNat]? with
  | none => throw (.noType typeIndex)
  | some want =>
      let table ← Step.fetch (·.tables) (.noTable tableIndex) (← Step.tableAddress tableIndex)
      let i ← Step.popI32
      match table.elems[i.toNat]? with
      | none => throw (.undefinedElement i)
      | some (.func addr) =>
          match (← get).store.funcs[addr]? with
          | none => throw (.undefinedFunction addr)
          | some f =>
              if f.type ≠ want then throw .signatureMismatch
              return addr
      | some _ => throw (.uninitializedElement i)

/-- The first values of declared local variables. -/
def localZeros (types : List ValType) : Except Trap (List Value) :=
  types.mapM fun t =>
    match Value.zero? t with
    | some v => .ok v
    | none => .error (.localType t)

/-- The address of the function that a named instance exports under a name. -/
def namedExport (inst func : String) : Run (Except Fault Addr) := do
  let m ← get
  match m.names.lookup inst with
  | none => return .error (.plain ("no instance " ++ inst))
  | some id =>
      match (m.store.instances[id]?).bind (·.exportedFunc? func) with
      | none => return .error (.notFound Phase.runtime "exported function" func)
      | some addr => return .ok addr

/-- Use a view of the memory that a named instance exports. -/
def useView (inst memory : String) (request : ViewRequest) : Run (Option ViewAnswer) :=
  modifyGet fun m =>
    let (answer, store) := m.store.useView m.names inst memory request
    (answer, { m with store := store })

end Run

end WasmMachine
