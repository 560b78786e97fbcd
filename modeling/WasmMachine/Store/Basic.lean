/-
# The store

The store owns everything that running code can refer to: functions, tables,
memories, globals and segments, and the instances that map the indices of a
module to addresses.  An address is a position in one of the lists of the store;
the lists only ever grow at the end, so an address stays valid.  Beside them stands
what host functions keep from one call to the next.
-/

import WasmMachine.Host.Program
import WasmMachine.Module.Basic
import WasmMachine.Numeric.Power
import WasmMachine.Store.Packed

namespace WasmMachine

/-- The position of an instance in the store. -/
abbrev InstanceId := Nat

/-- A function of a module. Its code refers to the instance it belongs to; without
one it can use nothing outside of itself. -/
structure Code where
  home : Option InstanceId
  type : FuncType
  locals : List ValType
  body : List Instruction

/-- A function of the embedder. -/
structure HostCode where
  name : String
  type : FuncType
  behaviour : HostBehaviour

/-- A function. -/
inductive FuncInst
  | code (function : Code)
  | host (function : HostCode)

/-- The signature of a function. -/
def FuncInst.type : FuncInst → FuncType
  | .code f => f.type
  | .host f => f.type

/-- A table of references. -/
structure TableInst where
  type : TableType
  elems : Array Ref

/-- A memory. -/
structure MemInst where
  type : MemoryType
  bytes : ByteArray

/-- The bytes of a memory as an array. -/
abbrev MemInst.data (m : MemInst) : Array UInt8 := m.bytes.data

/-- A global variable. -/
structure GlobalInst where
  type : GlobalType
  value : Value

/-- An element segment; a dropped one is empty. -/
structure ElemInst where
  type : ValType
  refs : List Ref

/-- A data segment; a dropped one is empty. -/
structure DataInst where
  data : List UInt8

/-- Something that an instance exports. -/
structure Extern where
  kind : ExternKind
  addr : Addr
  deriving DecidableEq, Repr

/-- The addresses behind the indices of a module, imports first, and its
exports. -/
structure ModuleInstance where
  name : String := ""
  types : List FuncType := []
  funcs : Array Addr := #[]
  tables : Array Addr := #[]
  memories : Array Addr := #[]
  globals : Array Addr := #[]
  elems : Array Addr := #[]
  datas : Array Addr := #[]
  exports : List (String × Extern) := []

namespace ModuleInstance

/-- What is exported under a name. -/
def export? (inst : ModuleInstance) (name : String) : Option Extern := inst.exports.lookup name

/-- The function that is exported under a name. -/
def exportedFunc? (inst : ModuleInstance) (name : String) : Option Addr :=
  match inst.export? name with
  | some e => if e.kind = .func then some e.addr else none
  | none => none

/-- The memory that is exported under a name. -/
def exportedMemory? (inst : ModuleInstance) (name : String) : Option Addr :=
  match inst.export? name with
  | some e => if e.kind = .memory then some e.addr else none
  | none => none

/-- Export something; an earlier export of the same name is replaced. -/
def addExport (inst : ModuleInstance) (name : String) (e : Extern) : ModuleInstance :=
  { inst with exports := (inst.exports.filter fun old => old.1 != name) ++ [(name, e)] }

/-- The addresses of one kind. A kind without a meaning has none. -/
def addresses (inst : ModuleInstance) (kind : ExternKind) : Array Addr :=
  match kind with
  | .func => inst.funcs
  | .table => inst.tables
  | .memory => inst.memories
  | .global => inst.globals
  | _ => #[]

/-- Add an address behind the others of its kind. -/
def addAddress (inst : ModuleInstance) (e : Extern) : ModuleInstance :=
  match e.kind with
  | .func => { inst with funcs := inst.funcs.push e.addr }
  | .table => { inst with tables := inst.tables.push e.addr }
  | .memory => { inst with memories := inst.memories.push e.addr }
  | .global => { inst with globals := inst.globals.push e.addr }
  | _ => inst

end ModuleInstance

/-- Everything that running code can refer to, and what host functions keep. -/
structure Store where
  funcs : Array FuncInst := #[]
  tables : Array TableInst := #[]
  memories : Array MemInst := #[]
  globals : Array GlobalInst := #[]
  elems : Array ElemInst := #[]
  datas : Array DataInst := #[]
  instances : Array ModuleInstance := #[]
  kept : List (String × List Value) := []

/-- No table gets larger than this, whatever its type allows. -/
def maxTableElems : Nat := 2 ^ 27

/-- The size up to which a table may grow. -/
def TableInst.limit (t : TableInst) : Nat :=
  match t.type.limits.max with
  | some most => min most.toNat maxTableElems
  | none => maxTableElems

/-- Whether a table may become `count` entries larger. -/
def TableInst.mayGrow (t : TableInst) (count : Nat) : Bool := t.elems.size + count ≤ t.limit

/-- Add `count` copies of a reference. -/
def TableInst.grow (t : TableInst) (count : Nat) (item : Ref) : TableInst :=
  { t with elems := Cells.append t.elems count item }

/-- The number of pages of a memory. -/
def MemInst.pages (m : MemInst) : Nat := m.bytes.size / pageSize

/-- The number of pages up to which a memory may grow. -/
def MemInst.limit (m : MemInst) : Nat :=
  match m.type.limits.max with
  | some most => min most.toNat maxPages
  | none => maxPages

/-- Whether a memory may become `count` pages larger. -/
def MemInst.mayGrow (m : MemInst) (count : Nat) : Bool := m.pages + count ≤ m.limit

/-- Add `count` pages of zeros. -/
def MemInst.grow (m : MemInst) (count : Nat) : MemInst :=
  { m with bytes := Packed.append m.bytes (Packed.zeros pageSize) count }

/-- Put bytes at a place of a memory. -/
def MemInst.write (m : MemInst) (start : Nat) (bytes : List UInt8) : MemInst :=
  { m with bytes := Packed.overwrite m.bytes start bytes }

/-- A memory of zeros, with the pages that its type starts with. -/
def MemInst.initial (t : MemoryType) : MemInst :=
  MemInst.grow ⟨t, .emptyWithCapacity (t.limits.min.toNat * pageSize)⟩ t.limits.min.toNat

namespace MemInst

variable (m : MemInst)

/-- The memory with other bytes. -/
abbrev withData (data : Array UInt8) : MemInst := { m with bytes := ⟨data⟩ }

theorem size_bytes : m.bytes.size = m.data.size := rfl

theorem grow_eq (count : Nat) :
    m.grow count = m.withData (Cells.append m.data (count * pageSize) 0) := by
  unfold grow withData
  rw [← Packed.data_append_zeros]

theorem data_write (start : Nat) (bytes : List UInt8) :
    (m.write start bytes).data = Cells.overwrite m.data start bytes :=
  Packed.data_overwrite m.bytes start bytes

theorem size_write (start : Nat) (bytes : List UInt8) :
    (m.write start bytes).data.size = m.data.size := by
  rw [data_write, Cells.size_overwrite]

theorem write_eq (start : Nat) (bytes : List UInt8) :
    m.write start bytes = m.withData (Cells.overwrite m.data start bytes) := by
  rw [← data_write]
  rfl

theorem initial_eq (t : MemoryType) :
    initial t = ⟨t, ⟨Array.replicate (t.limits.min.toNat * pageSize) 0⟩⟩ := by
  unfold initial
  rw [grow_eq]
  exact congrArg (fun data => MemInst.mk t ⟨data⟩) Array.empty_append

end MemInst

namespace Store

/-- Add a function. -/
def addFunc (s : Store) (f : FuncInst) : Addr × Store :=
  (s.funcs.size, { s with funcs := s.funcs.push f })

/-- Add a table of null references. -/
def addTable (s : Store) (t : TableType) : Addr × Store :=
  (s.tables.size,
    { s with tables := s.tables.push ⟨t, Array.replicate t.limits.min.toNat (.null t.elem)⟩ })

/-- Add a memory of zeros. -/
def addMemory (s : Store) (t : MemoryType) : Addr × Store :=
  (s.memories.size, { s with memories := s.memories.push (.initial t) })

/-- Add a global. -/
def addGlobal (s : Store) (t : GlobalType) (v : Value) : Addr × Store :=
  (s.globals.size, { s with globals := s.globals.push ⟨t, v⟩ })

/-- Add an element segment. -/
def addElem (s : Store) (t : ValType) (refs : List Ref) : Addr × Store :=
  (s.elems.size, { s with elems := s.elems.push ⟨t, refs⟩ })

/-- Add a data segment. -/
def addData (s : Store) (data : List UInt8) : Addr × Store :=
  (s.datas.size, { s with datas := s.datas.push ⟨data⟩ })

/-- Add an instance. -/
def addInstance (s : Store) (inst : ModuleInstance) : InstanceId × Store :=
  (s.instances.size, { s with instances := s.instances.push inst })

/-- Change an instance. -/
def modifyInstance (s : Store) (id : InstanceId) (f : ModuleInstance → ModuleInstance) : Store :=
  { s with instances := s.instances.modify id f }

/-- Put bytes into a memory. -/
def writeMemory (s : Store) (addr : Addr) (start : Nat) (bytes : List UInt8) : Store :=
  { s with memories := s.memories.modify addr (·.write start bytes) }

/-- Put references into a table. -/
def writeTable (s : Store) (addr : Addr) (start : Nat) (refs : List Ref) : Store :=
  { s with
    tables := s.tables.modify addr fun t => { t with elems := Cells.overwrite t.elems start refs } }

/-- Make a memory larger by a number of pages. -/
def growMemory (s : Store) (addr : Addr) (count : Nat) : Store :=
  { s with memories := s.memories.modify addr (·.grow count) }

/-- Make a table larger by a number of entries. -/
def growTable (s : Store) (addr : Addr) (count : Nat) (item : Ref) : Store :=
  { s with tables := s.tables.modify addr (·.grow count item) }

/-- Write a global. -/
def writeGlobal (s : Store) (addr : Addr) (v : Value) : Store :=
  { s with globals := s.globals.modify addr fun g => { g with value := v } }

/-- Empty an element segment. -/
def dropElem (s : Store) (addr : Addr) : Store :=
  { s with elems := s.elems.modify addr fun e => { e with refs := [] } }

/-- Empty a data segment. -/
def dropData (s : Store) (addr : Addr) : Store :=
  { s with datas := s.datas.modify addr fun _ => ⟨[]⟩ }

/-- Keep values under a name, instead of what was kept there. -/
def keep (s : Store) (name : String) (values : List Value) : Store :=
  { s with kept := (name, values) :: s.kept.filter fun old => old.1 != name }

/-- What is kept under a name. -/
def retrieve (s : Store) (name : String) : List Value := (s.kept.lookup name).getD []

end Store

end WasmMachine
