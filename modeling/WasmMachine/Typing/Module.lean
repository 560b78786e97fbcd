/-
# Checking a module

A module is checked completely before it may be instantiated: its structure
first, and alone; then every global, every segment and every function body.  The
items are independent of one another, and a failing item does not keep the
others from being checked.
-/

import WasmMachine.Module.Structure
import WasmMachine.Typing.Checker
import WasmMachine.Typing.Constant

namespace WasmMachine

namespace Typing

/-- A checked part of a module, by its index in its index space. -/
inductive Item
  | global (index : Nat)
  | element (index : Nat)
  | data (index : Nat)
  | func (index : Nat)
  deriving DecidableEq, Repr

/-- How reports name an item. -/
def Item.name : Item → String
  | .global index => s!"global[{index}]"
  | .element index => s!"elem[{index}]"
  | .data index => s!"data[{index}]"
  | .func index => s!"func[{index}]"

/-- An item that was refused and why. -/
structure Rejection where
  item : Item
  violation : Violation
  deriving DecidableEq, Repr

/-- A rejection as a report on its item. -/
def Rejection.toFault (r : Rejection) : Fault := r.violation.toFault.under r.item.name

/-- The violation of a failed check, as a list. -/
def violations : Except Violation Unit → List Violation
  | .ok _ => []
  | .error v => [v]

/-- What is wrong with an element segment. The table decides first; its offset and
its entries are then checked separately. -/
def elementViolations (ctx : Context) (e : Element) : List Violation :=
  let entries :=
    violations (e.exprList.forM fun expr => checkConstant ctx expr e.type ctx.globals.length)
  if e.mode = .active then
    match ctx.tables[e.table.toNat]? with
    | none => [.unknownIndex .table e.table]
    | some table =>
        if table.elem ≠ e.type then [.segmentType e.type table.elem]
        else violations (checkConstant ctx e.offset .i32 ctx.globals.length) ++ entries
  else entries

/-- What is wrong with a data segment. -/
def dataViolations (ctx : Context) (d : DataSegment) : List Violation :=
  if d.mode = .active then
    if ctx.memories.length ≤ d.memory.toNat then [.unknownIndex .memory d.memory]
    else violations (checkConstant ctx d.offset .i32 ctx.globals.length)
  else []

/-- What is wrong with a function body. -/
def bodyViolations (ctx : Context) (index : Nat) (body : FuncBody) : List Violation :=
  match ctx.funcs[index]? with
  | none => [.outside .function index]
  | some type => violations (checkBody (ctx.forFunction type body.localTypes) body.body)

/-- Check the items of one sort, each with its index, and collect the rejections
in order. -/
def rejectionsOf {α : Type} (item : Nat → Item) (check : Nat → α → List Violation)
    (items : List α) : List Rejection :=
  items.zipIdx.flatMap fun (x, i) => (check i x).map fun v => ⟨item i, v⟩

end Typing

namespace Module

open Typing

/-- Every rejected item: globals, element segments, data segments and functions,
each by index. A global's first value may read imported globals only. -/
def rejections (m : Module) : List Rejection :=
  let ctx := Context.ofModule m
  let importedGlobals := m.importCount .global
  let importedFuncs := m.importCount .func
  rejectionsOf (fun i => .global (importedGlobals + i))
      (fun _ g => violations (checkConstant ctx g.init g.type.type importedGlobals)) m.globals
    ++ rejectionsOf .element (fun _ e => elementViolations ctx e) m.elements
    ++ rejectionsOf .data (fun _ d => dataViolations ctx d) m.data
    ++ rejectionsOf (fun i => .func (importedFuncs + i))
      (fun i body => bodyViolations ctx (importedFuncs + i) body) m.code

/-- The report on a module whose structure is broken. -/
def structureFault (e : StructureError) : Fault :=
  .wrap Phase.validate "unknown_index" "module structure" (some (.plain e.text))

/-- Everything that is wrong with a module. A broken structure is reported
alone. -/
def faults (m : Module) : List Fault :=
  match m.checkStructure with
  | .error e => [structureFault e]
  | .ok _ => m.rejections.map Rejection.toFault

/-- Whether checking a module looks past the end of a list. It then comes to no
verdict. -/
def overreaches (m : Module) : Bool :=
  match m.checkStructure with
  | .error _ => false
  | .ok _ => m.rejections.any fun r => r.violation.kind == .lookup

/-- Accept a module or refuse it with all its faults as one. -/
def validate (m : Module) : Except Fault Unit :=
  match Fault.combine m.faults with
  | some fault => .error fault
  | none => .ok ()

/-- A function body checked on its own, in the module's context. A function
without a declaration has the empty type. -/
def checkFunctionBody (m : Module) (index : Nat) (body : FuncBody) : Except Violation Unit :=
  let ctx := Context.ofModule m
  let type := ctx.funcs[m.importCount .func + index]?.getD ⟨[], []⟩
  checkBody (ctx.forFunction type body.localTypes) body.body

end Module

end WasmMachine
