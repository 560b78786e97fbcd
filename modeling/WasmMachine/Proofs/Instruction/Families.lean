/-
# Where the families of instructions are

The numeric instructions and the loads and stores have opcodes of their own, and no
instruction moves more bytes than a vector has.
-/

import WasmMachine.Instruction.Families
import WasmMachine.Vector.Operation

namespace WasmMachine

/-- The numeric instructions have the opcodes from `0x45` to `0xc4`. -/
theorem Numeric.Operation.opcode_bounds {op : UInt8}
    (known : (Numeric.Operation.ofOpcode op).isSome) : 0x45 ≤ op.toNat ∧ op.toNat < 0xc5 := by
  have size : Numeric.Operation.table.size = 0xc5 - 0x45 := by decide +kernel
  unfold Numeric.Operation.ofOpcode at known
  split at known
  · cases known
  · next above =>
      rw [UInt8.lt_iff_toNat_lt] at above
      have inside : op.toNat - 0x45 < Numeric.Operation.table.size := by simpa using known
      have start : (0x45 : UInt8).toNat = 0x45 := rfl
      omega

theorem Numeric.Operation.eq_none_of_le {op : UInt8} (large : 0xc5 ≤ op.toNat) :
    Numeric.Operation.ofOpcode op = none := by
  cases numeric : Numeric.Operation.ofOpcode op with
  | none => rfl
  | some operation =>
      have bounds := Numeric.Operation.opcode_bounds (Option.isSome_of_eq_some numeric)
      exact absurd bounds.2 (Nat.not_lt.mpr large)

namespace MemoryAccess

variable {op : UInt8} {access : MemoryAccess}

/-- Loads and stores have the opcodes from `0x28` to `0x3e` and move eight bytes at most. -/
theorem spec_of_ofOpcode (known : ofOpcode op = some access) :
    op.toNat < 0x45 ∧ access.width ≤ 8 := by
  unfold ofOpcode at known
  split at known
  case h_24 => cases known
  all_goals
    cases known
    refine ⟨?_, by decide⟩
    omega

theorem type_of_ofOpcode (known : ofOpcode op = some access) :
    access.type = .i32 ∨ access.type = .i64 ∨ access.type = .f32 ∨ access.type = .f64 := by
  unfold ofOpcode at known
  split at known
  case h_24 => cases known
  all_goals
    cases known
    decide

theorem width_le (known : ofOpcode op = some access) : access.width ≤ 16 :=
  Nat.le_trans (spec_of_ofOpcode known).2 (by decide)

theorem numeric_eq_none (known : ofOpcode op = some access) :
    Numeric.Operation.ofOpcode op = none := by
  have below := (spec_of_ofOpcode known).1
  cases numeric : Numeric.Operation.ofOpcode op with
  | none => rfl
  | some operation =>
      have bounds := Numeric.Operation.opcode_bounds (Option.isSome_of_eq_some numeric)
      exact absurd bounds.1 (Nat.not_le.mpr below)

theorem eq_none_of_numeric (known : (Numeric.Operation.ofOpcode op).isSome) :
    ofOpcode op = none := by
  cases found : ofOpcode op with
  | none => rfl
  | some access =>
      rw [numeric_eq_none found] at known
      cases known

end MemoryAccess

theorem VectorOp.width_le {op : VectorOp} {width : Nat} {store : Bool}
    (moves : op.access? = some (width, store)) : width ≤ 16 := by
  have bytes_le (lanes : LaneWidth) : lanes.bytes ≤ 16 := by cases lanes <;> decide
  cases op <;> cases moves
  case loadSplat lanes => exact bytes_le lanes
  case loadZero lanes => exact bytes_le lanes
  all_goals decide

end WasmMachine
