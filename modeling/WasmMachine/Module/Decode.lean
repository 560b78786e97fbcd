/-
# Decoding modules

A module is a header and sections.  Each section has a number, a size and
contents that must fill the size exactly; sections come in one fixed order, each
at most once, except that custom sections may stand anywhere.
-/

import WasmMachine.Instruction.Decode
import WasmMachine.Module.Basic

namespace WasmMachine

/-- The sections that have a place in the order. -/
inductive SectionKind
  | custom
  | type
  | import_
  | function
  | table
  | memory
  | global
  | export_
  | start
  | element
  | dataCount
  | code
  | data
  deriving DecidableEq, Repr

namespace SectionKind

/-- The section of a number. -/
def ofId? (id : UInt8) : Option SectionKind :=
  match id.toNat with
  | 0 => some .custom
  | 1 => some .type
  | 2 => some .import_
  | 3 => some .function
  | 4 => some .table
  | 5 => some .memory
  | 6 => some .global
  | 7 => some .export_
  | 8 => some .start
  | 9 => some .element
  | 10 => some .code
  | 11 => some .data
  | 12 => some .dataCount
  | _ => none

/-- The number of a section. -/
def id : SectionKind → UInt8
  | .custom => 0
  | .type => 1
  | .import_ => 2
  | .function => 3
  | .table => 4
  | .memory => 5
  | .global => 6
  | .export_ => 7
  | .start => 8
  | .element => 9
  | .code => 10
  | .data => 11
  | .dataCount => 12

/-- The place of a section in the order; custom sections have none. -/
def order : SectionKind → Nat
  | .custom => 0
  | .type => 1
  | .import_ => 2
  | .function => 3
  | .table => 4
  | .memory => 5
  | .global => 6
  | .export_ => 7
  | .start => 8
  | .element => 9
  | .dataCount => 10
  | .code => 11
  | .data => 12

/-- The name of a section. -/
def name : SectionKind → String
  | .custom => "custom"
  | .type => "type"
  | .import_ => "import"
  | .function => "function"
  | .table => "table"
  | .memory => "memory"
  | .global => "global"
  | .export_ => "export"
  | .start => "start"
  | .element => "element"
  | .code => "code"
  | .data => "data"
  | .dataCount => "data count"

end SectionKind

/-- The largest number of locals that a function may declare. -/
def maxLocals : Nat := 50000

namespace Decoder

/-- The bounds of a table or memory. -/
def limits : Decoder Limits := do
  let flags ← byte
  if 1 < flags then throw (.limitsFlags flags)
  let least ← u32
  if flags == 0 then return ⟨least.toUInt64, none⟩
  let most ← u32
  if most < least then throw (.limitsOrder least most)
  return ⟨least.toUInt64, some most.toUInt64⟩

/-- A table type. -/
def tableType : Decoder TableType := do
  let elem ← valType
  if !elem.isRef then throw (.tableElem elem)
  return ⟨elem, ← limits⟩

/-- A memory type. -/
def memoryType : Decoder MemoryType := return ⟨← limits⟩

/-- A global type. -/
def globalType : Decoder GlobalType := do
  let type ← valType
  let flag ← byte
  if 1 < flag then throw (.mutability flag)
  return ⟨type, flag == 1⟩

section Vectors

variable (early : Bool)

/-- A function type behind the byte that announces it. -/
def funcType : Decoder FuncType := do
  let params ← vector early fun _ => valType
  let results ← vector early fun _ => valType
  return ⟨params, results⟩

/-- The type section. -/
def typeSection : Decoder (List FuncType) :=
  vector early fun i => do
    let form ← byte
    if form != 0x60 then throw (.inside (.type i) (.typeForm form))
    inside (.type i) (funcType early)

/-- An import. -/
def importItem : Decoder Import := do
  let mod ← name
  let field ← name
  let kind ← byte
  let blank : ImportDesc := ⟨⟨kind⟩, 0, none, none, none⟩
  match kind.toNat with
  | 0 => return ⟨mod, field, { blank with typeIndex := ← u32 }⟩
  | 1 => return ⟨mod, field, { blank with table := some (← tableType) }⟩
  | 2 => return ⟨mod, field, { blank with memory := some (← memoryType) }⟩
  | 3 => return ⟨mod, field, { blank with global := some (← globalType) }⟩
  | _ => throw (.importKind kind)

/-- A global with its first value. -/
def global (i : Nat) : Decoder Global := do
  let type ← globalType
  return ⟨type, ← inside (.globalInit i) (expr early)⟩

/-- An export. -/
def exportItem : Decoder Export := do
  let field ← name
  let kind ← byte
  if 3 < kind then throw (.exportKind kind)
  return ⟨field, ⟨kind⟩, ← u32⟩

/-- When a segment written with the given flags is applied: bit 0 is clear for
active ones, and bit 1 tells the others apart. -/
def elementMode (flags : UInt32) : SegmentMode :=
  if flags &&& 1 == 0 then .active else if flags &&& 2 == 0 then .passive else .declarative

/-- The type of the entries. Without bits 0 and 1 it is not written. -/
def elementType (flags : UInt32) : Decoder ValType := do
  if flags &&& 3 == 0 then return .funcref
  if flags &&& 4 != 0 then
    let type ← valType
    if !type.isRef then throw (.elementType type)
    return type
  let kind ← byte
  if kind != 0 then throw (.elementKind kind)
  return .funcref

/-- An element segment. Bit 2 of its flags says that the entries are
expressions, bit 1 of an active segment that the table is named. -/
def element : Decoder Element := do
  let flags ← u32
  if 7 < flags then throw (.elementFlags flags)
  let mode := elementMode flags
  let table ← if mode = .active ∧ flags &&& 2 != 0 then u32 else pure 0
  let offset ← if mode = .active then expr early else pure []
  let type ← elementType flags
  if flags &&& 4 != 0 then
    let exprs ← vector early fun _ => expr early
    return ⟨mode, flags, table, type, offset, none, some exprs⟩
  let funcs ← vector early fun _ => u32
  return ⟨mode, flags, table, type, offset, some funcs, none⟩

/-- The groups of locals, `n` more of them behind those in `done` (last first),
which declare `total` locals. -/
def localGroups : Nat → Nat → List LocalGroup → Decoder (List LocalGroup)
  | 0, _, done => return done.reverse
  | n + 1, total, done => do
      let count ← u32
      if maxLocals < total + count.toNat then throw .tooManyLocals
      let type ← valType
      localGroups n (total + count.toNat) (⟨count, type⟩ :: done)

/-- The locals and the instructions of a function. -/
def funcBody : Decoder FuncBody := do
  let groups ← count early
  let locals ← localGroups groups.toNat 0 []
  return ⟨locals, ← expr early⟩

/-- A function body behind its size, which it must fill. -/
def sizedBody (i : Nat) : Decoder FuncBody := do
  let size ← u32
  let inner ← window size.toNat
  let (body, unread) ← within inner (inside (.func i) (funcBody early))
  if unread.left != 0 then throw (.inside (.func i) (.trailing unread.left))
  return body

/-- A data segment. -/
def dataSegment (i : Nat) : Decoder DataSegment := do
  let flags ← u32
  if 2 < flags then throw (.dataFlags flags)
  let memory ← if flags == 2 then u32 else pure 0
  let offset ← if flags == 1 then pure [] else inside (.dataOffset i) (expr early)
  let size ← u32
  let init ← bytes size.toNat
  return ⟨if flags == 1 then .passive else .active, flags, memory, offset, init⟩

/-- A custom section: a name and whatever follows. -/
def customSection : Decoder CustomSection := do
  let title ← name
  return ⟨title, ← bytes (← left)⟩

/-- The contents of a section, put into the module read so far. -/
def sectionContents (m : Module) : SectionKind → Decoder Module
  | .custom => return { m with customs := m.customs ++ [← customSection] }
  | .type => return { m with types := ← typeSection early }
  | .import_ => return { m with imports := ← vector early fun _ => importItem }
  | .function => return { m with funcs := ← vector early fun _ => u32 }
  | .table => return { m with tables := ← vector early fun _ => tableType }
  | .memory => return { m with memories := ← vector early fun _ => memoryType }
  | .global => return { m with globals := ← vector early (global early) }
  | .export_ => return { m with exports := ← vector early fun _ => exportItem }
  | .start => return { m with start := some (← u32) }
  | .element => return { m with
      elements := ← vector early fun i => inside (.element i) (element early) }
  | .dataCount => return { m with dataCount := some (← u32) }
  | .code => return { m with code := ← vector early (sizedBody early) }
  | .data => return { m with data := ← vector early (dataSegment early) }

/-- The section whose number is read, if the order admits it behind `last`. -/
def sectionKind (last : Nat) (id : UInt8) : Decoder SectionKind :=
  match SectionKind.ofId? id with
  | none => throw (.unknownSection id)
  | some .custom => return .custom
  | some kind => if kind.order ≤ last then throw (.sectionOrder id) else return kind

/-- The sections that are left, behind one of place `last` in the order. Every
section takes at least two bytes, so the bytes left bound their number. -/
def sections : Nat → Nat → Module → Decoder Module
  | 0, _, m => return m
  | fuel + 1, last, m => do
      if (← left) == 0 then return m
      let id ← locate "section header" byte
      let kind ← sectionKind last id
      let size ← locate "section size" u32
      let inner ← locate "section data" (window size.toNat)
      let (m, unread) ← within inner (inside (.section_ kind.name) (sectionContents early m kind))
      if unread.left != 0 then
        throw (.inside (.section_ kind.name) (.located kind.name unread.position .sizeMismatch))
      sections fuel (if kind = .custom then last else kind.order) m

/-- A whole module. -/
def module_ : Decoder Module := do
  let magic ← locate "header" u32le
  if magic != 0x6d736100 then throw .badMagic
  let version ← locate "header" u32le
  if version != 1 then throw .badVersion
  let m ← sections early ((← left) + 1) 0 {}
  if m.funcs.length != m.code.length then throw (.bodyCount m.funcs.length m.code.length)
  if let some declared := m.dataCount then
    if declared.toNat != m.data.length then throw (.dataCount declared m.data.length)
  return m

end Vectors

end Decoder

namespace Module

/-- Decode a binary module. With `early`, counts that the bytes left cannot meet
are refused as soon as they are read. -/
def decodeWith (early : Bool) (bytes : List UInt8) : Except DecodeError Module :=
  match Decoder.module_ early (Reader.ofBytes bytes) with
  | .ok m _ => .ok m
  | .error cause _ => .error cause

/-- Decode a binary module. -/
def decode (bytes : List UInt8) : Except DecodeError Module := decodeWith true bytes

end Module

end WasmMachine
