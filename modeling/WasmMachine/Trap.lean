/-
# Traps

The causes for which running code stops.  The first group is what code that
passed the type checker can still run into; the second group guards the machine
against code that did not.
-/

import WasmMachine.Fault
import WasmMachine.Value

namespace WasmMachine

/-- Why execution stopped. -/
inductive Trap
  | unreachable
  | divideByZero
  | integerOverflow
  | invalidConversion
  | memoryBounds
  | tableBounds
  | undefinedElement (index : UInt32)
  | uninitializedElement (index : UInt32)
  | signatureMismatch
  | callStackExhausted
  | hostFailed (name : String) (cause : Fault)
  | hostResults (name : String) (results : List (Option Value)) (want : List ValType)
  | viewBounds (offset length size : Nat)
  | operands
  | noFrame
  | unsupportedOpcode (op : UInt8)
  | unsupportedMisc (sub : UInt32)
  | unsupportedVector (sub : UInt32)
  | missingBlockType
  | invalidBlockType (type : BlockType)
  | unknownLabel (depth : Nat)
  | escapingBranch
  | undefinedFunction (index : Nat)
  | noFunction (index : UInt32)
  | noLocal (index : UInt32)
  | noGlobal (index : UInt32)
  | noTable (index : UInt32)
  | noMemory (index : UInt32)
  | noElement (index : UInt32)
  | noData (index : UInt32)
  | noType (index : UInt32)
  | immutableGlobal
  | localType (type : ValType)
  | noLane (lane count : Nat)

namespace Trap

/-- A trap in words. -/
def detail : Trap → String
  | .unreachable => "unreachable"
  | .divideByZero => "integer divide by zero"
  | .integerOverflow => "integer overflow"
  | .invalidConversion => "invalid conversion to integer"
  | .memoryBounds => "out of bounds memory access"
  | .tableBounds => "out of bounds table access"
  | .undefinedElement index => s!"undefined element {index}"
  | .uninitializedElement index => s!"uninitialized element {index}"
  | .signatureMismatch => "indirect call type mismatch"
  | .callStackExhausted => "call stack exhausted"
  | .hostFailed name _ => "host function " ++ name ++ " failed"
  | .hostResults name results want =>
      "host function " ++ name ++ " returned " ++ Value.listText results ++ ", want "
        ++ ValType.listText want
  | .viewBounds offset length size =>
      s!"out of bounds memory access at {offset}+{length} (size {size})"
  | .operands => "operand stack underflow or type mismatch"
  | .noFrame => "no active frame"
  | .unsupportedOpcode op => "unsupported opcode 0x" ++ Text.hexByte op
  | .unsupportedMisc sub => "unsupported 0xFC sub-opcode 0x" ++ Text.hex 2 sub.toNat
  | .unsupportedVector sub => "unsupported 0xFD sub-opcode 0x" ++ Text.hex 2 sub.toNat
  | .missingBlockType => "missing block type"
  | .invalidBlockType type => "invalid block type " ++ toString type.toInt
  | .unknownLabel depth => s!"unknown label {depth}"
  | .escapingBranch => "branch depth escapes function"
  | .undefinedFunction index => s!"call to undefined function {index}"
  | .noFunction index => s!"function {index} out of range"
  | .noLocal index => s!"local {index} out of range"
  | .noGlobal index => s!"global {index} out of range"
  | .noTable index => s!"table {index} out of range"
  | .noMemory index => s!"memory {index} out of range"
  | .noElement index => s!"element segment {index} out of range"
  | .noData index => s!"data segment {index} out of range"
  | .noType index => s!"call_indirect type {index} out of range"
  | .immutableGlobal => "global is immutable"
  | .localType type => "local of unknown type " ++ type.name
  | .noLane lane count => s!"lane {lane} out of range for {count} lanes"

/-- The fault that lies below a trap. -/
def cause? : Trap → Option Fault
  | .hostFailed _ cause => some cause
  | _ => none

/-- Every trap is a report of one category. -/
def toFault (t : Trap) : Fault := .report Category.trap [] t.detail t.cause?

end Trap

end WasmMachine
