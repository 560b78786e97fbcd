/-
# Encoding modules

A module as bytes: the header, the sections that are not empty in their fixed
order, and the custom sections behind them.  The flags of a segment are worked
out from what it holds, so a segment built by hand need not carry them.
-/

import WasmMachine.Instruction.Encode
import WasmMachine.Module.Decode

namespace WasmMachine

namespace Encode

/-- A list of value types. -/
def valTypes (ts : List ValType) : List UInt8 := vector (fun t => [t.code]) ts

/-- The type section's form of a function type. -/
def funcType (t : FuncType) : List UInt8 := 0x60 :: (valTypes t.params ++ valTypes t.results)

/-- Bounds, each cut to 32 bits. -/
def limits (l : Limits) : List UInt8 :=
  match l.max with
  | none => 0 :: u32 l.min.toUInt32
  | some most => 1 :: (u32 l.min.toUInt32 ++ u32 most.toUInt32)

/-- A table type. -/
def tableType (t : TableType) : List UInt8 := t.elem.code :: limits t.limits

/-- A memory type. -/
def memoryType (t : MemoryType) : List UInt8 := limits t.limits

/-- A global type. -/
def globalType (t : GlobalType) : List UInt8 := [t.type.code, if t.mutable then 1 else 0]

/-- What an import asks for; a missing part is left out. -/
def importDesc (d : ImportDesc) : List UInt8 :=
  d.kind.code ::
    match d.kind.code.toNat with
    | 0 => u32 d.typeIndex
    | 1 => (d.table.map tableType).getD []
    | 2 => (d.memory.map memoryType).getD []
    | 3 => (d.global.map globalType).getD []
    | _ => []

/-- An import. -/
def importItem (i : Import) : List UInt8 := name i.mod ++ name i.name ++ importDesc i.desc

/-- A global. -/
def global (g : Global) : List UInt8 := globalType g.type ++ expr g.init

/-- An export. -/
def exportItem (e : Export) : List UInt8 := name e.name ++ e.kind.code :: u32 e.index

/-- The flags of an element segment: how it is applied, whether the table or the
type has to be named, and whether the entries are expressions. -/
def elementFlags (e : Element) : UInt32 :=
  let base : UInt32 :=
    if e.mode = .passive then 1
    else if e.mode = .declarative then 3
    else if e.table != 0 || (e.exprs.isSome && e.type != .funcref && e.type != .unknown) then 2
    else 0
  if e.exprs.isSome then base ||| 4 else base

/-- An element segment. -/
def element (e : Element) : List UInt8 :=
  let flags := elementFlags e
  u32 flags
    ++ (if e.mode = .active then
          (if flags &&& 2 != 0 then u32 e.table else []) ++ expr e.offset
        else [])
    ++ (if flags &&& 3 != 0 then
          [if e.exprs.isSome then (if e.type = .unknown then ValType.funcref.code else e.type.code)
           else 0]
        else [])
    ++ match e.exprs with
      | some exprs => vector expr exprs
      | none => vector u32 e.funcList

/-- A function body behind its size. -/
def sizedBody (b : FuncBody) : List UInt8 :=
  let bytes := vector (fun g => u32 g.count ++ [g.type.code]) b.locals ++ expr b.body
  length bytes.length ++ bytes

/-- A data segment. -/
def dataSegment (d : DataSegment) : List UInt8 :=
  (if d.mode = .passive then u32 1
   else if d.memory != 0 then u32 2 ++ u32 d.memory ++ expr d.offset
   else u32 0 ++ expr d.offset)
    ++ length d.init.length ++ d.init

/-- A custom section's contents. -/
def customSection (c : CustomSection) : List UInt8 := name c.name ++ c.data

/-- A section that holds a list, left out when the list is empty. -/
def listSection {α : Type} (kind : SectionKind) (item : α → List UInt8) (items : List α) :
    List UInt8 :=
  if items.isEmpty then [] else section_ kind.id (vector item items)

/-- A section that holds one number, left out when there is none. -/
def numberSection (kind : SectionKind) (n : Option UInt32) : List UInt8 :=
  match n with
  | none => []
  | some n => section_ kind.id (u32 n)

end Encode

/-- A module as bytes. -/
def Module.encode (m : Module) : List UInt8 :=
  Encode.u32le 0x6d736100 ++ Encode.u32le 1
    ++ Encode.listSection .type Encode.funcType m.types
    ++ Encode.listSection .import_ Encode.importItem m.imports
    ++ Encode.listSection .function Encode.u32 m.funcs
    ++ Encode.listSection .table Encode.tableType m.tables
    ++ Encode.listSection .memory Encode.memoryType m.memories
    ++ Encode.listSection .global Encode.global m.globals
    ++ Encode.listSection .export_ Encode.exportItem m.exports
    ++ Encode.numberSection .start m.start
    ++ Encode.listSection .element Encode.element m.elements
    ++ Encode.numberSection .dataCount m.dataCount
    ++ Encode.listSection .code Encode.sizedBody m.code
    ++ Encode.listSection .data Encode.dataSegment m.data
    ++ m.customs.flatMap fun c => Encode.section_ 0 (Encode.customSection c)

end WasmMachine
