/-
# Opcodes

The bytes of the instructions that the machine treats one by one.  Numeric
instructions, memory accesses and the instructions behind the two prefix bytes
come in families; their codes are read by `Numeric.Operation.ofOpcode`,
`MemoryAccess.ofOpcode`, `MiscOp.ofCode` and `VectorOp.ofCode`.
-/

namespace WasmMachine.Opcode

/-- Always traps. -/
@[match_pattern] def unreachable : UInt8 := 0x00
/-- Does nothing. -/
@[match_pattern] def nop : UInt8 := 0x01
/-- A block: branching to it leaves it. -/
@[match_pattern] def block : UInt8 := 0x02
/-- A loop: branching to it starts it again. -/
@[match_pattern] def loop : UInt8 := 0x03
/-- A choice between two arms. -/
@[match_pattern] def ifElse : UInt8 := 0x04
/-- Divides the arms of a choice. -/
@[match_pattern] def otherwise : UInt8 := 0x05
/-- Ends a body. -/
@[match_pattern] def close : UInt8 := 0x0b
/-- Branches. -/
@[match_pattern] def br : UInt8 := 0x0c
/-- Branches when the condition is not zero. -/
@[match_pattern] def brIf : UInt8 := 0x0d
/-- Branches to one of several labels. -/
@[match_pattern] def brTable : UInt8 := 0x0e
/-- Leaves the function. -/
@[match_pattern] def ret : UInt8 := 0x0f
/-- Calls a function by its index. -/
@[match_pattern] def call : UInt8 := 0x10
/-- Calls a function through a table. -/
@[match_pattern] def callIndirect : UInt8 := 0x11
/-- Drops an operand. -/
@[match_pattern] def drop : UInt8 := 0x1a
/-- Keeps one of two operands. -/
@[match_pattern] def select : UInt8 := 0x1b
/-- Keeps one of two operands of a given type. -/
@[match_pattern] def selectTyped : UInt8 := 0x1c
/-- Reads a local variable. -/
@[match_pattern] def localGet : UInt8 := 0x20
/-- Writes a local variable. -/
@[match_pattern] def localSet : UInt8 := 0x21
/-- Writes a local variable and keeps the operand. -/
@[match_pattern] def localTee : UInt8 := 0x22
/-- Reads a global. -/
@[match_pattern] def globalGet : UInt8 := 0x23
/-- Writes a global. -/
@[match_pattern] def globalSet : UInt8 := 0x24
/-- Reads a table entry. -/
@[match_pattern] def tableGet : UInt8 := 0x25
/-- Writes a table entry. -/
@[match_pattern] def tableSet : UInt8 := 0x26
/-- The size of the memory in pages. -/
@[match_pattern] def memorySize : UInt8 := 0x3f
/-- Adds pages to the memory. -/
@[match_pattern] def memoryGrow : UInt8 := 0x40
/-- A 32-bit integer constant. -/
@[match_pattern] def i32Const : UInt8 := 0x41
/-- A 64-bit integer constant. -/
@[match_pattern] def i64Const : UInt8 := 0x42
/-- A 32-bit float constant. -/
@[match_pattern] def f32Const : UInt8 := 0x43
/-- A 64-bit float constant. -/
@[match_pattern] def f64Const : UInt8 := 0x44
/-- A null reference. -/
@[match_pattern] def refNull : UInt8 := 0xd0
/-- Tests a reference for null. -/
@[match_pattern] def refIsNull : UInt8 := 0xd1
/-- A reference to a function. -/
@[match_pattern] def refFunc : UInt8 := 0xd2
/-- Saturating conversions and bulk operations follow. -/
@[match_pattern] def misc : UInt8 := 0xfc
/-- Vector instructions follow. -/
@[match_pattern] def vector : UInt8 := 0xfd

end WasmMachine.Opcode
