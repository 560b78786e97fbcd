/-
# The numbers of instructions

The instructions behind a prefix byte have numbers.  The machine reads instructions off
numbers; here the numbers stand beside the instructions, as the binary format lists them, and
the two are shown to agree.
-/

import WasmMachine.Instruction.Families
import WasmMachine.Vector.Operation

namespace WasmMachine

/-- A table agrees with a function that gives what is in its rows, and nothing for numbers
that have no row. The latter is checked below a bound, beyond which the function gives nothing
at all. -/
theorem map_lookup_eq {α β : Type} {table : List (UInt32 × α)} {g : α → β} {f : UInt32 → Option β}
    (bound : Nat) (rows : ∀ row ∈ table, f row.1 = some (g row.2))
    (below : ∀ n : Fin bound, f (.ofNat n) = none ∨ .ofNat n ∈ table.map (·.1))
    (above : ∀ sub : UInt32, bound ≤ sub.toNat → f sub = none) (sub : UInt32) :
    (table.lookup sub).map g = f sub := by
  cases found : table.lookup sub with
  | some a =>
      obtain ⟨before, behind, is, -⟩ := List.lookup_eq_some_iff.mp found
      exact (rows (sub, a) (is ▸ List.mem_append_right before List.mem_cons_self)).symm
  | none =>
      by_cases small : sub.toNat < bound
      · have listed := below ⟨sub.toNat, small⟩
        rw [UInt32.ofNat_toNat] at listed
        refine (listed.resolve_right fun mem => ?_).symm
        obtain ⟨row, mem, is⟩ := List.mem_map.mp mem
        exact bne_iff_ne.mp (List.lookup_eq_none_iff.mp found row mem) is.symm
      · exact (above sub (Nat.not_lt.mp small)).symm

namespace MiscOp

/-- The instructions behind the miscellaneous prefix with their numbers. -/
def numbers : List (UInt32 × MiscOp) := [
  (0x00, .truncate false false true), (0x01, .truncate false false false),
  (0x02, .truncate false true true), (0x03, .truncate false true false),
  (0x04, .truncate true false true), (0x05, .truncate true false false),
  (0x06, .truncate true true true), (0x07, .truncate true true false), (0x08, .memoryInit),
  (0x09, .dataDrop), (0x0a, .memoryCopy), (0x0b, .memoryFill), (0x0c, .tableInit),
  (0x0d, .elemDrop), (0x0e, .tableCopy), (0x0f, .tableGrow), (0x10, .tableSize),
  (0x11, .tableFill)]

/-- The machine reads the same instructions off the numbers. -/
theorem lookup_numbers (sub : UInt32) : numbers.lookup sub = ofCode sub := by
  refine Option.map_id'.symm.trans (map_lookup_eq 18 ?_ ?_ ?_ sub)
  · decide
  · decide
  · intro sub large
    obtain ⟨k, is⟩ := Nat.exists_eq_add_of_le' large
    rw [ofCode, is]
    rfl

end MiscOp

namespace VectorOp

/-- The vector instructions with their numbers. -/
def numbers : List (UInt32 × VectorOp) := [
  (0x00, .load), (0x01, .loadExtend .w8 true), (0x02, .loadExtend .w8 false),
  (0x03, .loadExtend .w16 true), (0x04, .loadExtend .w16 false), (0x05, .loadExtend .w32 true),
  (0x06, .loadExtend .w32 false), (0x07, .loadSplat .w8), (0x08, .loadSplat .w16),
  (0x09, .loadSplat .w32), (0x0a, .loadSplat .w64), (0x0b, .store), (0x0c, .const),
  (0x0d, .shuffle), (0x0e, .swizzle), (0x0f, .splat .i8x16), (0x10, .splat .i16x8),
  (0x11, .splat .i32x4), (0x12, .splat .i64x2), (0x13, .splat .f32x4), (0x14, .splat .f64x2),
  (0x15, .extract .i8x16 true), (0x16, .extract .i8x16 false), (0x17, .replace .i8x16),
  (0x18, .extract .i16x8 true), (0x19, .extract .i16x8 false), (0x1a, .replace .i16x8),
  (0x1b, .extract .i32x4 false), (0x1c, .replace .i32x4), (0x1d, .extract .i64x2 false),
  (0x1e, .replace .i64x2), (0x1f, .extract .f32x4 false), (0x20, .replace .f32x4),
  (0x21, .extract .f64x2 false), (0x22, .replace .f64x2), (0x4d, .not), (0x4e, .and),
  (0x4f, .andNot), (0x50, .or), (0x51, .xor), (0x52, .bitselect), (0x53, .anyTrue),
  (0x5c, .loadZero .w32), (0x5d, .loadZero .w64), (0x5e, .demoteZero), (0x5f, .promoteLow),
  (0x63, .allTrue .w8), (0x64, .bitmask .w8), (0x65, .narrow .w8 true), (0x66, .narrow .w8 false),
  (0x6e, .add .w8), (0x71, .sub .w8), (0x83, .allTrue .w16), (0x84, .bitmask .w16),
  (0x85, .narrow .w16 true), (0x86, .narrow .w16 false), (0x87, .extend .w8 false true),
  (0x88, .extend .w8 true true), (0x89, .extend .w8 false false), (0x8a, .extend .w8 true false),
  (0x8e, .add .w16), (0x91, .sub .w16), (0xa3, .allTrue .w32), (0xa4, .bitmask .w32),
  (0xa7, .extend .w16 false true), (0xa8, .extend .w16 true true),
  (0xa9, .extend .w16 false false), (0xaa, .extend .w16 true false), (0xae, .add .w32),
  (0xb1, .sub .w32), (0xc3, .allTrue .w64), (0xc4, .bitmask .w64), (0xc7, .extend .w32 false true),
  (0xc8, .extend .w32 true true), (0xc9, .extend .w32 false false),
  (0xca, .extend .w32 true false), (0xce, .add .w64), (0xd1, .sub .w64), (0xf8, .truncate true),
  (0xf9, .truncate false), (0xfa, .convert true), (0xfb, .convert false)]

/-- The vector instructions have numbers of one byte. -/
theorem ofCode_eq_none {sub : UInt32} (large : 256 ≤ sub.toNat) : ofCode sub = none := by
  unfold ofCode
  obtain ⟨k, is⟩ := Nat.exists_eq_add_of_le' large
  rw [is]
  rfl

/-- The machine reads the same instructions off the numbers. -/
theorem lookup_numbers (sub : UInt32) : numbers.lookup sub = ofCode sub := by
  refine Option.map_id'.symm.trans (map_lookup_eq 256 ?_ ?_ ?_ sub)
  · decide +kernel
  · decide +kernel
  · exact fun sub => ofCode_eq_none

end VectorOp

end WasmMachine
