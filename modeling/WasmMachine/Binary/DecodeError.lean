/-
# Decoding errors

Why a byte string is no module or no expression.  A leaf is the cause itself; the
other constructors say where it was met: at a position, at a position of a named
part of the binary, or in an item of the module.
-/

import WasmMachine.Fault
import WasmMachine.Types

namespace WasmMachine

/-- An item of a module, as error texts name it. -/
inductive Place
  | section_ (name : String)
  | type (index : Nat)
  | globalInit (index : Nat)
  | element (index : Nat)
  | func (index : Nat)
  | dataOffset (index : Nat)
  deriving DecidableEq, Repr

/-- The name of a place. -/
def Place.text : Place → String
  | .section_ name => name ++ " section"
  | .type index => s!"type {index}"
  | .globalInit index => s!"global {index} init"
  | .element index => s!"element {index}"
  | .func index => s!"func {index}"
  | .dataOffset index => s!"data {index} offset"

/-- Why decoding failed. -/
inductive DecodeError
  | endOfInput
  | unexpectedEnd
  | overflow
  | invalidUtf8
  | badMagic
  | badVersion
  | unknownSection (id : UInt8)
  | sectionOrder (id : UInt8)
  | sizeMismatch
  | bodyCount (funcs bodies : Nat)
  | dataCount (declared : UInt32) (segments : Nat)
  | count (count : UInt32) (left : Nat)
  | typeForm (form : UInt8)
  | valueType (code : UInt8)
  | importKind (kind : UInt8)
  | exportKind (kind : UInt8)
  | limitsFlags (flags : UInt8)
  | limitsOrder (min max : UInt32)
  | tableElem (type : ValType)
  | mutability (flag : UInt8)
  | elementFlags (flags : UInt32)
  | elementType (type : ValType)
  | elementKind (kind : UInt8)
  | dataFlags (flags : UInt32)
  | tooManyLocals
  | trailing (bytes : Nat)
  | nesting
  | unexpectedElse
  | elseOutsideIf
  | duplicateElse
  | opcode (op : UInt8)
  | blockType (value : Int)
  | blockTypeIndex (value : Int)
  | labelCount (count : UInt32)
  | selectTypes (count : UInt32)
  | nullType (code : UInt8)
  | miscCode (sub : UInt32)
  | vectorCode (sub : UInt32)
  | lane (lane : UInt8)
  | alignment (align : UInt32)
  | words (text : String)
  | atPosition (position : Nat) (cause : DecodeError)
  | located (part : String) (position : Nat) (cause : DecodeError)
  | inside (place : Place) (cause : DecodeError)
  deriving DecidableEq, Repr

/-- The greatest number of constructs that may be nested in each other. -/
def maxNesting : Nat := 1024

namespace DecodeError

/-- The text of a cause; the constructors that only say where are empty here. -/
def leafText : DecodeError → String
  | .endOfInput => "EOF"
  | .unexpectedEnd => "unexpected EOF"
  | .overflow => "leb128: overflow"
  | .invalidUtf8 => "invalid UTF-8 in name"
  | .badMagic => "invalid wasm magic number"
  | .badVersion => "invalid wasm version"
  | .unknownSection id => "unknown section ID: 0x" ++ Text.hexByte id
  | .sectionOrder id => "section " ++ toString id.toNat ++ " appears out of order"
  | .sizeMismatch => "section size mismatch"
  | .bodyCount funcs bodies =>
      s!"function and code section have inconsistent lengths: {funcs} vs {bodies}"
  | .dataCount declared segments =>
      s!"data count {declared} does not match {segments} data segments"
  | .count n left => s!"count {n} exceeds remaining {left} bytes"
  | .typeForm form => "unsupported type form 0x" ++ Text.hexByte form
  | .valueType code => "invalid value type 0x" ++ Text.hexByte code
  | .importKind kind => "unknown import kind: " ++ toString kind.toNat
  | .exportKind kind => "invalid export kind: 0x" ++ Text.hexByte kind
  | .limitsFlags flags => "unsupported limits flags 0x" ++ Text.hexByte flags
  | .limitsOrder min max => s!"limits min ({min}) exceeds max ({max})"
  | .tableElem type => "table element type " ++ type.name ++ " is not a reference type"
  | .mutability flag => "invalid mutability flag 0x" ++ Text.hexByte flag
  | .elementFlags flags => s!"invalid element segment flags: {flags}"
  | .elementType type => "element type " ++ type.name ++ " is not a reference type"
  | .elementKind kind => "unsupported element kind 0x" ++ Text.hexByte kind
  | .dataFlags flags => s!"invalid data segment flags: {flags}"
  | .tooManyLocals => "too many locals"
  | .trailing bytes => s!"{bytes} trailing bytes after end"
  | .nesting => "nesting deeper than " ++ toString maxNesting
  | .unexpectedElse => "unexpected else"
  | .elseOutsideIf => "else outside if"
  | .duplicateElse => "duplicate else"
  | .opcode op => "unsupported opcode 0x" ++ Text.hexByte op
  | .blockType value => "invalid block type " ++ toString value
  | .blockTypeIndex value => "block type index " ++ toString value ++ " too large"
  | .labelCount n => s!"label count {n} exceeds input"
  | .selectTypes n => s!"typed select expects 1 type, got {n}"
  | .nullType code => "ref.null of non-reference type 0x" ++ Text.hexByte code
  | .miscCode sub => "unsupported 0xFC sub-opcode 0x" ++ Text.hex 2 sub.toNat
  | .vectorCode sub => "unsupported 0xFD sub-opcode 0x" ++ Text.hex 2 sub.toNat
  | .lane n => "lane index " ++ toString n.toNat ++ " out of range"
  | .alignment align => s!"memory alignment {align} too large"
  | .words text => text
  | .atPosition _ _ | .located _ _ _ | .inside _ _ => ""

/-- The fault that reports an error. -/
def toFault : DecodeError → Fault
  | .atPosition position cause => .context s!"at position {position}" cause.toFault
  | .located part position cause => .located part position cause.toFault
  | .inside place cause => .context place.text cause.toFault
  | cause => .plain cause.leafText

/-- Whether an error names a position of a part of the binary. -/
def isLocated : DecodeError → Bool
  | .located _ _ _ => true
  | .atPosition _ cause => cause.isLocated
  | .inside _ cause => cause.isLocated
  | _ => false

end DecodeError

end WasmMachine
