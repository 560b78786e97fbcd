/-
# Loads and stores by their names

The name of a load or store says what the instruction moves: the type of the operand, the
direction, and what part of the operand it is.  Here the names stand beside their numbers in
the binary format, and what a name says is put together from its parts.

The machine has tables of its own, which know no names.  That they agree with this one is
the lemmas at the end.
-/

import WasmMachine.Instruction.Basic
import WasmMachine.Instruction.Opcode
import WasmMachine.Proofs.Instruction.Numbers

namespace WasmMachine

/-- What a load makes of the number that it reads. -/
inductive Form
  | zeroExtended
  | signExtended
  | inLanes (from_ : LaneWidth) (signed : Bool)
  | splat (lanes : LaneWidth)
  deriving DecidableEq, Repr

/-- What a load or store moves: an operand of a type, and a number of bytes. -/
structure Transfer where
  type : ValType
  width : Nat
  store : Bool
  form : Form
  deriving DecidableEq, Repr

/-! ## Names -/

/-- The part of the operand that a name speaks of: all of it, its low bits, narrow lanes that
are widened, or one lane, which is repeated or stands alone. -/
inductive AccessPart
  | whole
  | low (bits : Nat) (signed : Bool)
  | lanes (from_ : LaneWidth) (signed : Bool)
  | splat (lane : LaneWidth)
  | zero (lane : LaneWidth)
  deriving DecidableEq, Repr

/-- A load or store by its name. -/
structure AccessName where
  type : ValType
  stores : Bool
  part : AccessPart
  deriving DecidableEq, Repr

/-- The part as it is spelled. A store has no need for a sign. -/
def AccessPart.text (stores : Bool) : AccessPart → String
  | .whole => ""
  | .low bits signed => toString bits ++ (if stores then "" else sign signed)
  | .lanes from_ signed => s!"{from_.bits}x{from_.count / 2}" ++ sign signed
  | .splat lane => s!"{lane.bits}_splat"
  | .zero lane => s!"{lane.bits}_zero"
where
  /-- How a sign is spelled. -/
  sign (signed : Bool) : String := if signed then "_s" else "_u"

namespace AccessName

/-- The name as it is spelled. -/
def text (n : AccessName) : String :=
  n.type.name ++ "." ++ (if n.stores then "store" else "load") ++ n.part.text n.stores

/-- The bytes of an operand of a type. -/
def typeBytes (type : ValType) : Nat :=
  if type = .v128 then 16 else if type = .i64 ∨ type = .f64 then 8 else 4

/-- What the instruction moves, as its name says. -/
def transfer (n : AccessName) : Transfer :=
  match n.part with
  | .whole => ⟨n.type, typeBytes n.type, n.stores, .zeroExtended⟩
  | .low bits signed =>
      ⟨n.type, bits / 8, n.stores, if signed then .signExtended else .zeroExtended⟩
  | .lanes from_ signed => ⟨n.type, 8, n.stores, .inLanes from_ signed⟩
  | .splat lane => ⟨n.type, lane.bits / 8, n.stores, .splat lane⟩
  | .zero lane => ⟨n.type, lane.bits / 8, n.stores, .zeroExtended⟩

/-- A load of a type. -/
def load (type : ValType) (part : AccessPart := .whole) : AccessName := ⟨type, false, part⟩

/-- A store of a type. -/
def store (type : ValType) (part : AccessPart := .whole) : AccessName := ⟨type, true, part⟩

/-- The loads and stores of scalars with their opcodes. -/
def scalars : List (UInt8 × AccessName) := [
  (0x28, load .i32), (0x29, load .i64), (0x2a, load .f32), (0x2b, load .f64),
  (0x2c, load .i32 (.low 8 true)), (0x2d, load .i32 (.low 8 false)),
  (0x2e, load .i32 (.low 16 true)), (0x2f, load .i32 (.low 16 false)),
  (0x30, load .i64 (.low 8 true)), (0x31, load .i64 (.low 8 false)),
  (0x32, load .i64 (.low 16 true)), (0x33, load .i64 (.low 16 false)),
  (0x34, load .i64 (.low 32 true)), (0x35, load .i64 (.low 32 false)),
  (0x36, store .i32), (0x37, store .i64), (0x38, store .f32), (0x39, store .f64),
  (0x3a, store .i32 (.low 8 false)), (0x3b, store .i32 (.low 16 false)),
  (0x3c, store .i64 (.low 8 false)), (0x3d, store .i64 (.low 16 false)),
  (0x3e, store .i64 (.low 32 false))]

/-- The loads and stores of vectors with the numbers behind their prefix. -/
def vectors : List (UInt32 × AccessName) := [
  (0x00, load .v128),
  (0x01, load .v128 (.lanes .w8 true)), (0x02, load .v128 (.lanes .w8 false)),
  (0x03, load .v128 (.lanes .w16 true)), (0x04, load .v128 (.lanes .w16 false)),
  (0x05, load .v128 (.lanes .w32 true)), (0x06, load .v128 (.lanes .w32 false)),
  (0x07, load .v128 (.splat .w8)), (0x08, load .v128 (.splat .w16)),
  (0x09, load .v128 (.splat .w32)), (0x0a, load .v128 (.splat .w64)),
  (0x0b, store .v128),
  (0x5c, load .v128 (.zero .w32)), (0x5d, load .v128 (.zero .w64))]

example : scalars.map (·.2.text) = [
    "i32.load", "i64.load", "f32.load", "f64.load",
    "i32.load8_s", "i32.load8_u", "i32.load16_s", "i32.load16_u",
    "i64.load8_s", "i64.load8_u", "i64.load16_s", "i64.load16_u", "i64.load32_s", "i64.load32_u",
    "i32.store", "i64.store", "f32.store", "f64.store",
    "i32.store8", "i32.store16", "i64.store8", "i64.store16", "i64.store32"] := by
  decide +kernel

example : vectors.map (·.2.text) = [
    "v128.load", "v128.load8x8_s", "v128.load8x8_u", "v128.load16x4_s", "v128.load16x4_u",
    "v128.load32x2_s", "v128.load32x2_u", "v128.load8_splat", "v128.load16_splat",
    "v128.load32_splat", "v128.load64_splat", "v128.store", "v128.load32_zero",
    "v128.load64_zero"] := by
  decide +kernel

end AccessName

/-- What a load or store moves, by its name, and the constant part of the address. -/
def Instruction.transfer? (i : Instruction) : Option (Transfer × UInt64) :=
  match AccessName.scalars.lookup i.opcode with
  | some name => some (name.transfer, i.memArg.offset)
  | none =>
      if i.opcode = Opcode.vector then
        (AccessName.vectors.lookup i.vector.sub).map fun name =>
          (name.transfer, (i.vector.arg.map (·.offset)).getD 0)
      else none

/-- A byte, read with its sign as an integer of 64 bits. -/
example : (Instruction.plain 0x30 (some (.memory ⟨0, 16⟩))).transfer? =
    some (⟨.i64, 1, false, .signExtended⟩, 16) := rfl

/-- Four numbers of 16 bits, read without a sign into lanes of 32 bits. -/
example : (Instruction.plain Opcode.vector (some (.simd 4 0 (some ⟨3, 8⟩) none))).transfer? =
    some (⟨.v128, 8, false, .inLanes .w16 false⟩, 8) := rfl

/-! ## The machine's tables -/

/-- What the machine moves for a load or store of a scalar. -/
def MemoryAccess.transfer (a : MemoryAccess) : Transfer :=
  ⟨a.type, a.width, a.store, if a.signed then .signExtended else .zeroExtended⟩

namespace VectorOp

/-- What the machine makes of the number that a load of a vector reads. -/
def form : VectorOp → Form
  | .loadExtend from_ signed => .inLanes from_ signed
  | .loadSplat lanes => .splat lanes
  | _ => .zeroExtended

/-- What the machine moves for a load or store of a vector. -/
def transfer? (op : VectorOp) : Option Transfer :=
  op.access?.map fun access => ⟨.v128, access.1, access.2, op.form⟩

end VectorOp

namespace AccessName

/-- The machine does with each opcode what the name says. -/
theorem lookup_scalars (op : UInt8) :
    (scalars.lookup op).map transfer = (MemoryAccess.ofOpcode op).map (·.transfer) := by
  have all : ∀ n : Fin 256, (scalars.lookup (.ofFin n)).map transfer =
      (MemoryAccess.ofOpcode (.ofFin n)).map (·.transfer) := by decide +kernel
  exact all op.toFin

theorem lookup_vectors (sub : UInt32) :
    (vectors.lookup sub).map transfer = (VectorOp.ofCode sub).bind (·.transfer?) := by
  let f (sub : UInt32) := (VectorOp.ofCode sub).bind (·.transfer?)
  refine map_lookup_eq (f := f) 256 ?_ ?_ (fun sub large => ?_) sub
  · decide +kernel
  · decide +kernel
  · show (VectorOp.ofCode sub).bind _ = none
    rw [VectorOp.ofCode_eq_none large]
    rfl

end AccessName

/-- What the machine reads off its own tables is what the names say. -/
theorem Instruction.transfer?_eq (i : Instruction) : i.transfer? =
    match MemoryAccess.ofOpcode i.opcode with
    | some a => some (a.transfer, i.memArg.offset)
    | none =>
        if i.opcode = Opcode.vector then
          ((VectorOp.ofCode i.vector.sub).bind (·.transfer?)).map
            (·, (i.vector.arg.map (·.offset)).getD 0)
        else none := by
  have scalar := AccessName.lookup_scalars i.opcode
  unfold transfer?
  cases named : AccessName.scalars.lookup i.opcode with
  | some name =>
      rw [named] at scalar
      obtain ⟨a, found, same⟩ := Option.map_eq_some_iff.mp scalar.symm
      simp only [found, same]
  | none =>
      rw [named] at scalar
      have unknown : MemoryAccess.ofOpcode i.opcode = none := Option.map_eq_none_iff.mp scalar.symm
      simp only [unknown, ← AccessName.lookup_vectors, Option.map_map, Function.comp_def]

end WasmMachine
