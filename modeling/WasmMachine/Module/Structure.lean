/-
# The structure of a module

The checks that need no instruction: every index that the parts of a module name
is in range, export names are unique, the start function takes and gives nothing,
and bounds are in order.  The checks run in a fixed sequence and the first that
fails is reported.
-/

import WasmMachine.Fault
import WasmMachine.Module.Basic

namespace WasmMachine

/-- Whether a bound belongs to something the module imports or defines. -/
inductive Origin
  | imported
  | defined
  deriving DecidableEq, Repr

/-- What is wrong with the structure of a module. -/
inductive StructureError
  | funcType (func : Nat) (type : UInt32)
  | importType (index : Nat) (mod name : String) (type : UInt32)
  | startIndex (index : UInt32) (funcs : Nat)
  | elementFunc (element entry : Nat) (func : UInt32)
  | exportFunc (index : Nat) (name : String) (func : UInt32)
  | elementTable (element : Nat) (table : UInt32)
  | exportTable (index : Nat) (name : String) (table : UInt32)
  | memories (count : Nat)
  | dataMemory (segment : Nat) (memory : UInt32)
  | exportMemory (index : Nat) (name : String) (memory : UInt32)
  | exportGlobal (index : Nat) (name : String) (global : UInt32)
  | duplicateExport (name : String) (index : Nat)
  | startType (index : UInt32)
  | startSignature (params results : Nat)
  | dataCount (declared : UInt32) (segments : Nat)
  | codeCount (bodies funcs : Nat)
  | memoryMin (origin : Origin) (index : Nat) (min : UInt64)
  | memoryMax (origin : Origin) (index : Nat) (max : UInt64)
  | memoryOrder (origin : Origin) (index : Nat) (min max : UInt64)
  | tableElem (origin : Origin) (index : Nat) (elem : ValType)
  | tableOrder (origin : Origin) (index : Nat) (min max : UInt64)
  deriving DecidableEq, Repr

/-- The word that stands before the name of an imported thing. -/
def Origin.word : Origin → String
  | .imported => "imported "
  | .defined => ""

/-- A structural fault in words. -/
def StructureError.text : StructureError → String
  | .funcType func type => s!"function {func} references invalid type index {type}"
  | .importType index mod name type =>
      s!"import {index} ({mod}.{name}) references invalid type index {type}"
  | .startIndex index funcs => s!"start function index {index} exceeds function count {funcs}"
  | .elementFunc element entry func =>
      s!"element {element}, entry {entry} references invalid function index {func}"
  | .exportFunc index name func =>
      s!"export {index} ({name}) references invalid function index {func}"
  | .elementTable element table => s!"element {element} references invalid table index {table}"
  | .exportTable index name table =>
      s!"export {index} ({name}) references invalid table index {table}"
  | .memories count => s!"multiple memories are not supported ({count} declared)"
  | .dataMemory segment memory =>
      s!"data segment {segment} references invalid memory index {memory}"
  | .exportMemory index name memory =>
      s!"export {index} ({name}) references invalid memory index {memory}"
  | .exportGlobal index name global =>
      s!"export {index} ({name}) references invalid global index {global}"
  | .duplicateExport name index =>
      "duplicate export name " ++ Text.quoted name ++ " at index " ++ toString index
  | .startType index => s!"start function {index} has no type"
  | .startSignature params results =>
      s!"start function must have signature [] -> [], got [{params} params] -> [{results} results]"
  | .dataCount declared segments =>
      s!"data count section declares {declared} segments, but data section has {segments}"
  | .codeCount bodies funcs =>
      s!"code section has {bodies} entries but function section has {funcs}"
  | .memoryMin origin index min =>
      origin.word ++ s!"memory {index}: min pages {min} exceeds maximum {maxPages}"
  | .memoryMax origin index max =>
      origin.word ++ s!"memory {index}: max pages {max} exceeds maximum {maxPages}"
  | .memoryOrder origin index min max =>
      origin.word ++ s!"memory {index}: min pages {min} exceeds max {max}"
  | .tableElem origin index elem =>
      origin.word ++ s!"table {index}: element type " ++ elem.name ++ " is not a reference type"
  | .tableOrder origin index min max =>
      origin.word ++ s!"table {index}: min {min} exceeds max {max}"

namespace Module

/-- Check the items of a list one by one, each with its index. -/
def checkEach {α : Type} (check : Nat → α → Except StructureError Unit) (items : List α) :
    Except StructureError Unit :=
  items.zipIdx.forM fun (item, index) => check index item

/-- Report `fault` when `bad` holds. -/
def reject (bad : Bool) (fault : StructureError) : Except StructureError Unit :=
  if bad then .error fault else .ok ()

variable (m : Module)

/-- Check the exports of one kind against the number of things of that kind. -/
def checkExports (kind : ExternKind) (count : Nat)
    (fault : Nat → String → UInt32 → StructureError) : Except StructureError Unit :=
  checkEach (fun i e => reject (e.kind == kind && count ≤ e.index.toNat) (fault i e.name e.index))
    m.exports

/-- Functions and function imports name a type. -/
def checkTypeIndices : Except StructureError Unit := do
  checkEach (fun i type => reject (m.types.length ≤ type.toNat) (.funcType i type)) m.funcs
  checkEach (fun i (imp : Import) =>
    reject (imp.desc.kind == .func && m.types.length ≤ imp.desc.typeIndex.toNat)
      (.importType i imp.mod imp.name imp.desc.typeIndex)) m.imports

/-- The number of functions, imports included. -/
def funcCount : Nat := m.importCount .func + m.funcs.length
/-- The number of tables, imports included. -/
def tableCount : Nat := m.importCount .table + m.tables.length
/-- The number of memories, imports included. -/
def memoryCount : Nat := m.importCount .memory + m.memories.length
/-- The number of globals, imports included. -/
def globalCount : Nat := m.importCount .global + m.globals.length

/-- The start function, the entries of element segments and the exports name a
function. -/
def checkFuncIndices : Except StructureError Unit := do
  if let some start := m.start then
    reject (m.funcCount ≤ start.toNat) (.startIndex start m.funcCount)
  checkEach (fun i (e : Element) =>
    checkEach (fun j func => reject (m.funcCount ≤ func.toNat) (.elementFunc i j func))
      e.funcList) m.elements
  m.checkExports .func m.funcCount .exportFunc

/-- Active element segments and exports name a table. -/
def checkTableIndices : Except StructureError Unit := do
  checkEach (fun i (e : Element) =>
    reject (e.mode == .active && m.tableCount ≤ e.table.toNat) (.elementTable i e.table))
    m.elements
  m.checkExports .table m.tableCount .exportTable

/-- There is at most one memory, and active data segments and exports name it. -/
def checkMemoryIndices : Except StructureError Unit := do
  reject (1 < m.memoryCount) (.memories m.memoryCount)
  checkEach (fun i (d : DataSegment) =>
    reject (d.mode == .active && m.memoryCount ≤ d.memory.toNat) (.dataMemory i d.memory)) m.data
  m.checkExports .memory m.memoryCount .exportMemory

/-- Exports name a global. -/
def checkGlobalIndices : Except StructureError Unit :=
  m.checkExports .global m.globalCount .exportGlobal

/-- No name is exported twice. -/
def checkExportNames : Except StructureError Unit :=
  checkEach (fun i (e : Export) =>
    reject ((m.exports.take i).any fun earlier => earlier.name == e.name)
      (.duplicateExport e.name i)) m.exports

/-- The start function takes and gives nothing. -/
def checkStart : Except StructureError Unit := do
  if let some start := m.start then
    match m.funcType? start with
    | none => throw (.startType start)
    | some type =>
        reject (!type.params.isEmpty || !type.results.isEmpty)
          (.startSignature type.params.length type.results.length)

/-- A declared number of data segments is the actual one. -/
def checkDataCount : Except StructureError Unit := do
  if let some declared := m.dataCount then
    reject (declared.toNat != m.data.length) (.dataCount declared m.data.length)

/-- Every function has a body. -/
def checkCodeCount : Except StructureError Unit :=
  reject (m.code.length != m.funcs.length) (.codeCount m.code.length m.funcs.length)

/-- The bounds of a memory, in pages. -/
def checkMemoryType (origin : Origin) (index : Nat) (t : MemoryType) :
    Except StructureError Unit := do
  reject (maxPages < t.limits.min.toNat) (.memoryMin origin index t.limits.min)
  if let some most := t.limits.max then
    reject (maxPages < most.toNat) (.memoryMax origin index most)
    reject (most < t.limits.min) (.memoryOrder origin index t.limits.min most)

/-- The element type and the bounds of a table. -/
def checkTableType (origin : Origin) (index : Nat) (t : TableType) :
    Except StructureError Unit := do
  reject (!t.elem.isRef) (.tableElem origin index t.elem)
  if let some most := t.limits.max then
    reject (most < t.limits.min) (.tableOrder origin index t.limits.min most)

/-- The bounds that an import states, where it states any. -/
def checkImportLimits (index : Nat) (imp : Import) : Except StructureError Unit := do
  if imp.desc.kind == .memory then
    if let some memory := imp.desc.memory then checkMemoryType .imported index memory
  if imp.desc.kind == .table then
    if let some table := imp.desc.table then checkTableType .imported index table

/-- All bounds. -/
def checkLimits : Except StructureError Unit := do
  checkEach checkImportLimits m.imports
  checkEach (checkMemoryType .defined) m.memories
  checkEach (checkTableType .defined) m.tables

/-- The structural checks in their sequence. -/
def checkStructure : Except StructureError Unit := do
  m.checkTypeIndices
  m.checkFuncIndices
  m.checkTableIndices
  m.checkMemoryIndices
  m.checkGlobalIndices
  m.checkExportNames
  m.checkStart
  m.checkDataCount
  m.checkCodeCount
  m.checkLimits

end Module

end WasmMachine
