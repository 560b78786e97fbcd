/-
# Modules

A module as a tree: its types, imports, definitions, exports and segments, with
every body and every constant expression decoded.  Nothing here says that the
parts fit together; that is the business of `Module.checkStructure` and of the
type checker.
-/

import WasmMachine.Instruction.Basic
import WasmMachine.Instruction.Opcode

namespace WasmMachine

/-- What an import asks for. The kind decides which of the other fields counts;
a tree built by hand may leave that field out. -/
structure ImportDesc where
  kind : ExternKind
  typeIndex : UInt32
  table : Option TableType
  memory : Option MemoryType
  global : Option GlobalType
  deriving DecidableEq, Repr

/-- An import: a module, a name in it, and what is expected there. -/
structure Import where
  mod : String
  name : String
  desc : ImportDesc
  deriving DecidableEq, Repr

/-- A global with the constant expression of its first value. -/
structure Global where
  type : GlobalType
  init : List Instruction

/-- An export: a name for something of an index space. -/
structure Export where
  name : String
  kind : ExternKind
  index : UInt32
  deriving DecidableEq, Repr

/-- When a segment is applied, by its number: at instantiation, on demand, or
never because it only declares. -/
structure SegmentMode where
  code : UInt8
  deriving DecidableEq, Repr

namespace SegmentMode

/-- Copied into a table or memory at instantiation. -/
@[match_pattern] def active : SegmentMode := ⟨0⟩
/-- Kept for instructions that copy from it. -/
@[match_pattern] def passive : SegmentMode := ⟨1⟩
/-- Only declares functions that may be referred to. -/
@[match_pattern] def declarative : SegmentMode := ⟨2⟩

end SegmentMode

/-- An element segment. It lists functions or holds expressions; `flags` is how
the segment was written in the binary it came from. -/
structure Element where
  mode : SegmentMode
  flags : UInt32
  table : UInt32
  type : ValType
  offset : List Instruction
  funcs : Option (List UInt32)
  exprs : Option (List (List Instruction))

/-- The functions a segment lists. -/
def Element.funcList (e : Element) : List UInt32 := e.funcs.getD []

/-- The expressions a segment holds. -/
def Element.exprList (e : Element) : List (List Instruction) := e.exprs.getD []

/-- The number of entries of a segment. -/
def Element.length (e : Element) : Nat :=
  match e.exprs with
  | some exprs => exprs.length
  | none => e.funcList.length

/-- A run of local variables of one type. -/
structure LocalGroup where
  count : UInt32
  type : ValType
  deriving DecidableEq, Repr

/-- The locals and the instructions of a function. -/
structure FuncBody where
  locals : List LocalGroup
  body : List Instruction

/-- The type of every declared local, in order. -/
def FuncBody.localTypes (b : FuncBody) : List ValType :=
  b.locals.flatMap fun group => List.replicate group.count.toNat group.type

/-- A data segment; `flags` is how it was written in the binary. -/
structure DataSegment where
  mode : SegmentMode
  flags : UInt32
  memory : UInt32
  offset : List Instruction
  init : List UInt8

/-- A section that the format leaves to others. -/
structure CustomSection where
  name : String
  data : List UInt8
  deriving DecidableEq, Repr

/-- A module. -/
structure Module where
  types : List FuncType := []
  imports : List Import := []
  funcs : List UInt32 := []
  tables : List TableType := []
  memories : List MemoryType := []
  globals : List Global := []
  exports : List Export := []
  start : Option UInt32 := none
  elements : List Element := []
  code : List FuncBody := []
  data : List DataSegment := []
  dataCount : Option UInt32 := none
  customs : List CustomSection := []

namespace Module

variable (m : Module)

/-- The number of imports of one kind. -/
def importCount (kind : ExternKind) : Nat :=
  m.imports.countP fun i => i.desc.kind == kind

/-- The type indices of the functions, imports first. -/
def funcTypeIndices : List UInt32 :=
  (m.imports.filter fun i => i.desc.kind == .func).map (·.desc.typeIndex) ++ m.funcs

/-- The type index of an imported function: other imports are passed, and the index counts
down with every function that is. -/
def importedTypeIndex? : List Import → Nat → Option UInt32
  | [], _ => none
  | imp :: rest, index =>
      if imp.desc.kind == .func then
        match index with
        | 0 => some imp.desc.typeIndex
        | index + 1 => importedTypeIndex? rest index
      else importedTypeIndex? rest index

/-- The type of a function by its index among all functions, imports first. -/
def funcType? (index : UInt32) : Option FuncType := do
  let imported := m.importCount .func
  let type ←
    if index.toNat < imported then importedTypeIndex? m.imports index.toNat
    else m.funcs[index.toNat - imported]?
  m.types[type.toNat]?

/-- The index of a type, added at the end when no equal one is there. -/
def addType (type : FuncType) : UInt32 × Module :=
  match m.types.findIdx? (· == type) with
  | some index => (UInt32.ofNat index, m)
  | none => (UInt32.ofNat m.types.length, { m with types := m.types ++ [type] })

end Module

namespace Instruction

/-- The function that a direct call names, for a call with its own immediate. -/
def callTarget? (i : Instruction) : Option UInt32 :=
  if i.opcode == Opcode.call then
    match i.immediate with
    | some (.call func) => some func
    | _ => none
  else none

/-- Calls through a table. -/
def isIndirectCall (i : Instruction) : Bool := i.opcode == Opcode.callIndirect

end Instruction

end WasmMachine
