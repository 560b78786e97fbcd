/-
# What code may refer to

The context of a module lists its index spaces, imports before definitions, and
the functions that code may take references to.  The context of a function adds
its local variables and its results.
-/

import WasmMachine.Module.Basic

namespace WasmMachine.Typing

/-- The index spaces of a module as the checker sees them, and the variables of
the function at hand. A function is declared, and so may be referred to, when it
is exported or when a segment or the first value of a global names it. -/
structure Context where
  types : List FuncType := []
  funcs : List FuncType := []
  tables : List TableType := []
  memories : List MemoryType := []
  globals : List GlobalType := []
  elements : List ValType := []
  dataCount : Nat := 0
  declared : List UInt32 := []
  locals : List ValType := []
  results : List ValType := []

/-- The functions that an expression refers to. -/
def referredFunctions (expr : List Instruction) : List UInt32 :=
  expr.filterMap fun i =>
    if i.opcode == Opcode.refFunc then
      match i.immediate with
      | some (.refFunc func) => some func
      | _ => none
    else none

/-- The type of an index; one that is out of range stands for the empty type. -/
def typeAt (types : List FuncType) (index : UInt32) : FuncType :=
  types[index.toNat]?.getD ⟨[], []⟩

namespace Context

/-- The functions that a module declares. -/
def declaredIn (m : Module) : List UInt32 :=
  (m.elements.flatMap fun e => e.funcList ++ e.exprList.flatMap referredFunctions)
    ++ (m.exports.filter fun e => e.kind == .func).map (·.index)
    ++ m.globals.flatMap fun g => referredFunctions g.init

/-- The context of a module. An import that does not say what it asks for has no
place in the index spaces. -/
def ofModule (m : Module) : Context where
  types := m.types
  funcs := m.funcTypeIndices.map (typeAt m.types)
  tables :=
    (m.imports.filterMap fun i => if i.desc.kind == .table then i.desc.table else none) ++ m.tables
  memories :=
    (m.imports.filterMap fun i => if i.desc.kind == .memory then i.desc.memory else none)
      ++ m.memories
  globals :=
    (m.imports.filterMap fun i => if i.desc.kind == .global then i.desc.global else none)
      ++ m.globals.map (·.type)
  elements := m.elements.map (·.type)
  dataCount := (m.dataCount.map (·.toNat)).getD m.data.length
  declared := declaredIn m

/-- The context of a function of type `type` with the given declared locals. The
parameters are the first local variables. -/
def forFunction (ctx : Context) (type : FuncType) (locals : List ValType) : Context :=
  { ctx with locals := type.params ++ locals, results := type.results }

end Context

end WasmMachine.Typing
