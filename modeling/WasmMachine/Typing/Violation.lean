/-
# Violations

What the type checker can hold against an instruction or a constant expression.
Each cause belongs to one of eight kinds and has one wording.  A cause that names
an opcode is about the operands of that instruction.

`outside` is no verdict on the checked code.  It says that the checker itself
looked past the end of one of its lists, and it is a cause of its own so that
statements can say when this happens.
-/

import WasmMachine.Fault
import WasmMachine.Types

namespace WasmMachine.Typing

/-- The lists that instructions refer to by an index. -/
inductive Space
  | type
  | function
  | table
  | memory
  | global
  | element
  | data
  | construct
  | operand
  deriving DecidableEq, Repr

/-- The name of a list in messages. -/
def Space.name : Space → String
  | .type => "type"
  | .function => "function"
  | .table => "table"
  | .memory => "memory"
  | .global => "global"
  | .element => "element segment"
  | .data => "data segment"
  | .construct => "construct"
  | .operand => "operand"

/-- Why code was refused. -/
inductive Violation
  | noLocal (index : UInt32) (count : Nat)
  | emptyStack (op : UInt8)
  | operandType (op : UInt8) (want found : ValType)
  | leftOver (op : UInt8) (count : Nat)
  | labelArity (op : UInt8) (label : UInt32) (arity fallback : Nat)
  | selectReference (op : UInt8)
  | selectDiffers (op : UInt8) (lower upper : ValType)
  | selectTypes (op : UInt8)
  | notFuncTable (op : UInt8) (table : UInt32)
  | notRefType (op : UInt8) (type : ValType)
  | notReference (op : UInt8) (type : ValType)
  | initTypes (op : UInt8) (segment table : ValType)
  | copyTypes (op : UInt8) (target source : ValType)
  | laneRange (op : UInt8) (lane : UInt8) (count : Nat)
  | shuffleMissing (op : UInt8)
  | shuffleRange (op : UInt8) (index : Nat)
  | constantResult (op : UInt8) (want : ValType) (got : List ValType)
  | segmentType (segment table : ValType)
  | undeclaredFunction (index : UInt32)
  | unknownLabel (depth : UInt32)
  | unknownIndex (space : Space) (index : UInt32)
  | immutableGlobal (index : UInt32)
  | constantReadsMutable (index : UInt32)
  | alignment (op : UInt8) (align : UInt32) (width : Nat)
  | unsupportedOpcode (op : UInt8)
  | unsupportedMisc (sub : UInt32)
  | unsupportedVector (sub : UInt32)
  | constantOpcode (op : UInt8)
  | constantVector (sub : UInt32)
  | outside (space : Space) (index : Nat)
  deriving DecidableEq, Repr

/-- The kinds of violations. -/
inductive ViolationKind
  | noLocal
  | operands
  | undeclared
  | label
  | index
  | immutable
  | alignment
  | unsupported
  | lookup
  deriving DecidableEq, Repr

/-- The word that reports carry for a kind. -/
def ViolationKind.word : ViolationKind → String
  | .noLocal => "no_local_found"
  | .operands => "insufficient_operand_stack_for_instruction"
  | .undeclared => "cannot_find_ref_func_in_validation_context"
  | .label => "unknown_label"
  | .index => "unknown_index"
  | .immutable => "immutable_global"
  | .alignment => "invalid_alignment"
  | .unsupported => "unsupported"
  | .lookup => "lookup_out_of_range"

namespace Violation

/-- The kind of a violation. -/
def kind : Violation → ViolationKind
  | .noLocal _ _ => .noLocal
  | .emptyStack _ | .operandType _ _ _ | .leftOver _ _ | .labelArity _ _ _ _
  | .selectReference _ | .selectDiffers _ _ _ | .selectTypes _ | .notFuncTable _ _
  | .notRefType _ _ | .notReference _ _ | .initTypes _ _ _ | .copyTypes _ _ _
  | .laneRange _ _ _ | .shuffleMissing _ | .shuffleRange _ _ | .constantResult _ _ _
  | .segmentType _ _ => .operands
  | .undeclaredFunction _ => .undeclared
  | .unknownLabel _ => .label
  | .unknownIndex _ _ => .index
  | .immutableGlobal _ | .constantReadsMutable _ => .immutable
  | .alignment _ _ _ => .alignment
  | .unsupportedOpcode _ | .unsupportedMisc _ | .unsupportedVector _ | .constantOpcode _
  | .constantVector _ => .unsupported
  | .outside _ _ => .lookup

/-- How messages name an opcode. -/
def opcodeName (op : UInt8) : String := "opcode 0x" ++ Text.hexByte op

/-- A violation in words. -/
def detail : Violation → String
  | .noLocal index count => s!"local {index} not found (function has {count})"
  | .emptyStack op => opcodeName op ++ ": operand stack is empty"
  | .operandType op want found =>
      opcodeName op ++ ": expected " ++ want.name ++ ", found " ++ found.name
  | .leftOver op count => opcodeName op ++ s!": {count} values left at end of block"
  | .labelArity op label arity fallback =>
      opcodeName op ++ s!": label {label} has arity {arity}, default has {fallback}"
  | .selectReference op => opcodeName op ++ ": untyped select on reference operands"
  | .selectDiffers op lower upper =>
      opcodeName op ++ ": operands differ: " ++ lower.name ++ " and " ++ upper.name
  | .selectTypes op => opcodeName op ++ ": typed select needs exactly one type"
  | .notFuncTable op table => opcodeName op ++ s!": table {table} is not a funcref table"
  | .notRefType op type => opcodeName op ++ ": " ++ type.name ++ " is not a reference type"
  | .notReference op type => opcodeName op ++ ": expected a reference, found " ++ type.name
  | .initTypes op segment table =>
      opcodeName op ++ ": element segment type " ++ segment.name
        ++ " does not match table type " ++ table.name
  | .copyTypes op target source =>
      opcodeName op ++ ": table types differ: " ++ target.name ++ " and " ++ source.name
  | .laneRange op lane count => opcodeName op ++ s!": lane {lane} out of range for {count} lanes"
  | .shuffleMissing op => opcodeName op ++ ": shuffle without lane indices"
  | .shuffleRange op index => opcodeName op ++ s!": shuffle lane index {index} out of range"
  | .constantResult op want got =>
      opcodeName op ++ ": constant expression must produce one " ++ want.name ++ ", got "
        ++ ValType.listText got
  | .segmentType segment table =>
      "segment type " ++ segment.name ++ " does not match table type " ++ table.name
  | .undeclaredFunction index => s!"function {index} is not declared for ref.func"
  | .unknownLabel depth => s!"unknown label {depth}"
  | .unknownIndex space index => "unknown " ++ space.name ++ s!" {index}"
  | .immutableGlobal index => s!"global {index} is immutable"
  | .constantReadsMutable index => s!"constant expression reads mutable global {index}"
  | .alignment op align width =>
      opcodeName op ++ s!": alignment 2^{align} exceeds natural alignment {width}"
  | .unsupportedOpcode op => "unsupported " ++ opcodeName op
  | .unsupportedMisc sub => "unsupported 0xFC sub-opcode 0x" ++ Text.hex 2 sub.toNat
  | .unsupportedVector sub => "unsupported 0xFD sub-opcode 0x" ++ Text.hex 2 sub.toNat
  | .constantOpcode op => "constant expression uses " ++ opcodeName op
  | .constantVector sub =>
      "constant expression uses 0xFD sub-opcode 0x" ++ Text.hex 2 sub.toNat
  | .outside space index => "no " ++ space.name ++ s!" {index}"

/-- A violation as a report. -/
def toFault (v : Violation) : Fault :=
  .report ⟨Phase.validate, v.kind.word⟩ [] v.detail none

end Violation

end WasmMachine.Typing
