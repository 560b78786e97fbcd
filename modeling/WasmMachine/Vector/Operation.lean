/-
# Vector instructions

The instructions behind the vector prefix byte.  `VectorOp.ofCode` reads the
number that follows the prefix; `VectorOp.immediate` says what else follows; the
instructions that touch no memory are run by `VectorOp.apply`.
-/

import WasmMachine.Trap
import WasmMachine.Numeric.Operation

namespace WasmMachine

/-- The shapes that lanes are read and written in: a width and the type of the
scalar that goes with it. -/
inductive LaneShape
  | i8x16 | i16x8 | i32x4 | i64x2 | f32x4 | f64x2
  deriving DecidableEq, Repr

namespace LaneShape

/-- The width of a lane. -/
def width : LaneShape → LaneWidth
  | .i8x16 => .w8
  | .i16x8 => .w16
  | .i32x4 | .f32x4 => .w32
  | .i64x2 | .f64x2 => .w64

/-- The type of the scalar. -/
def scalar : LaneShape → ValType
  | .i8x16 | .i16x8 | .i32x4 => .i32
  | .i64x2 => .i64
  | .f32x4 => .f32
  | .f64x2 => .f64

end LaneShape

/-- A vector instruction. -/
inductive VectorOp
  | load
  | loadExtend (from_ : LaneWidth) (signed : Bool)
  | loadSplat (width : LaneWidth)
  | loadZero (width : LaneWidth)
  | store
  | const
  | shuffle
  | swizzle
  | splat (shape : LaneShape)
  | extract (shape : LaneShape) (signed : Bool)
  | replace (shape : LaneShape)
  | not
  | and
  | andNot
  | or
  | xor
  | bitselect
  | anyTrue
  | allTrue (width : LaneWidth)
  | bitmask (width : LaneWidth)
  | add (width : LaneWidth)
  | sub (width : LaneWidth)
  | narrow (target : LaneWidth) (signed : Bool)
  | extend (from_ : LaneWidth) (high signed : Bool)
  | truncate (signed : Bool)
  | convert (signed : Bool)
  | promoteLow
  | demoteZero
  deriving DecidableEq, Repr

/-- What follows the number of a vector instruction. -/
inductive VectorImmediateSort
  | memArg
  | bytes
  | lane
  | nothing
  deriving DecidableEq, Repr

namespace VectorOp

/-- The vector instruction of a number. -/
def ofCode (sub : UInt32) : Option VectorOp :=
  match sub.toNat with
  | 0x00 => some .load
  | 0x01 => some (.loadExtend .w8 true)
  | 0x02 => some (.loadExtend .w8 false)
  | 0x03 => some (.loadExtend .w16 true)
  | 0x04 => some (.loadExtend .w16 false)
  | 0x05 => some (.loadExtend .w32 true)
  | 0x06 => some (.loadExtend .w32 false)
  | 0x07 => some (.loadSplat .w8)
  | 0x08 => some (.loadSplat .w16)
  | 0x09 => some (.loadSplat .w32)
  | 0x0a => some (.loadSplat .w64)
  | 0x0b => some .store
  | 0x0c => some .const
  | 0x0d => some .shuffle
  | 0x0e => some .swizzle
  | 0x0f => some (.splat .i8x16)
  | 0x10 => some (.splat .i16x8)
  | 0x11 => some (.splat .i32x4)
  | 0x12 => some (.splat .i64x2)
  | 0x13 => some (.splat .f32x4)
  | 0x14 => some (.splat .f64x2)
  | 0x15 => some (.extract .i8x16 true)
  | 0x16 => some (.extract .i8x16 false)
  | 0x17 => some (.replace .i8x16)
  | 0x18 => some (.extract .i16x8 true)
  | 0x19 => some (.extract .i16x8 false)
  | 0x1a => some (.replace .i16x8)
  | 0x1b => some (.extract .i32x4 false)
  | 0x1c => some (.replace .i32x4)
  | 0x1d => some (.extract .i64x2 false)
  | 0x1e => some (.replace .i64x2)
  | 0x1f => some (.extract .f32x4 false)
  | 0x20 => some (.replace .f32x4)
  | 0x21 => some (.extract .f64x2 false)
  | 0x22 => some (.replace .f64x2)
  | 0x4d => some .not
  | 0x4e => some .and
  | 0x4f => some .andNot
  | 0x50 => some .or
  | 0x51 => some .xor
  | 0x52 => some .bitselect
  | 0x53 => some .anyTrue
  | 0x5c => some (.loadZero .w32)
  | 0x5d => some (.loadZero .w64)
  | 0x5e => some .demoteZero
  | 0x5f => some .promoteLow
  | 0x63 => some (.allTrue .w8)
  | 0x64 => some (.bitmask .w8)
  | 0x65 => some (.narrow .w8 true)
  | 0x66 => some (.narrow .w8 false)
  | 0x6e => some (.add .w8)
  | 0x71 => some (.sub .w8)
  | 0x83 => some (.allTrue .w16)
  | 0x84 => some (.bitmask .w16)
  | 0x85 => some (.narrow .w16 true)
  | 0x86 => some (.narrow .w16 false)
  | 0x87 => some (.extend .w8 false true)
  | 0x88 => some (.extend .w8 true true)
  | 0x89 => some (.extend .w8 false false)
  | 0x8a => some (.extend .w8 true false)
  | 0x8e => some (.add .w16)
  | 0x91 => some (.sub .w16)
  | 0xa3 => some (.allTrue .w32)
  | 0xa4 => some (.bitmask .w32)
  | 0xa7 => some (.extend .w16 false true)
  | 0xa8 => some (.extend .w16 true true)
  | 0xa9 => some (.extend .w16 false false)
  | 0xaa => some (.extend .w16 true false)
  | 0xae => some (.add .w32)
  | 0xb1 => some (.sub .w32)
  | 0xc3 => some (.allTrue .w64)
  | 0xc4 => some (.bitmask .w64)
  | 0xc7 => some (.extend .w32 false true)
  | 0xc8 => some (.extend .w32 true true)
  | 0xc9 => some (.extend .w32 false false)
  | 0xca => some (.extend .w32 true false)
  | 0xce => some (.add .w64)
  | 0xd1 => some (.sub .w64)
  | 0xf8 => some (.truncate true)
  | 0xf9 => some (.truncate false)
  | 0xfa => some (.convert true)
  | 0xfb => some (.convert false)
  | _ => none

/-- Loads and stores: the number of bytes moved, and whether they are stored. -/
def access? : VectorOp → Option (Nat × Bool)
  | .load => some (16, false)
  | .loadExtend _ _ => some (8, false)
  | .loadSplat w => some (w.bytes, false)
  | .loadZero w => some (w.bytes, false)
  | .store => some (16, true)
  | _ => none

/-- The shape of an instruction that names a lane. -/
def laneShape? : VectorOp → Option LaneShape
  | .extract shape _ => some shape
  | .replace shape => some shape
  | _ => none

/-- What follows the instruction's number in the binary. -/
def immediate (op : VectorOp) : VectorImmediateSort :=
  match op with
  | .const | .shuffle => .bytes
  | _ =>
      if op.access?.isSome then .memArg
      else if op.laneShape?.isSome then .lane
      else .nothing

/-- The types that an instruction takes, first operand first, and gives. -/
def signature : VectorOp → List ValType × List ValType
  | .load | .loadExtend _ _ | .loadSplat _ | .loadZero _ => ([.i32], [.v128])
  | .store => ([.i32, .v128], [])
  | .const => ([], [.v128])
  | .splat shape => ([shape.scalar], [.v128])
  | .extract shape _ => ([.v128], [shape.scalar])
  | .replace shape => ([.v128, shape.scalar], [.v128])
  | .not | .extend _ _ _ | .truncate _ | .convert _ | .promoteLow | .demoteZero =>
      ([.v128], [.v128])
  | .shuffle | .swizzle | .and | .andNot | .or | .xor | .add _ | .sub _ | .narrow _ _ =>
      ([.v128, .v128], [.v128])
  | .bitselect => ([.v128, .v128, .v128], [.v128])
  | .anyTrue | .allTrue _ | .bitmask _ => ([.v128], [.i32])

end VectorOp

namespace V128

/-- A 32-bit lane as a pattern. -/
def float32 (v : V128) (i : Nat) : FloatValue := binary32.value (v.lane 32 i).toNat

/-- A 64-bit lane as a pattern. -/
def float64 (v : V128) (i : Nat) : FloatValue := binary64.value (v.lane 64 i).toNat

/-- Whether a finite value is at most the integer `n`. -/
def finiteLe (negative : Bool) (mantissa : Nat) (exponent : Int) (n : Int) : Bool :=
  if 0 ≤ exponent then signedInt negative (mantissa <<< exponent.toNat) ≤ n
  else signedInt negative mantissa ≤ n <<< (-exponent).toNat

/-- Whether a finite value is at least the integer `n`. -/
def finiteGe (negative : Bool) (mantissa : Nat) (exponent : Int) (n : Int) : Bool :=
  if 0 ≤ exponent then n ≤ signedInt negative (mantissa <<< exponent.toNat)
  else n <<< (-exponent).toNat ≤ signedInt negative mantissa

/-- Truncate a lane into a 32-bit integer type: what is on or past an end of the
range becomes that end, and only the rest is cut toward zero. -/
def saturate32 (signed : Bool) (v : FloatValue) : Int :=
  let (least, greatest) := Numeric.extremes .w32 signed
  match v with
  | .nan => 0
  | .infinite negative => if negative then least else greatest
  | .finite negative mantissa exponent =>
      if finiteLe negative mantissa exponent least then least
      else if finiteGe negative mantissa exponent greatest then greatest
      else v.integerPart?.getD 0

/-- Each float lane as an integer. -/
def truncateLanes (signed : Bool) (v : V128) : V128 :=
  ofLanes 32 4 fun i => BitVec.ofInt 32 (saturate32 signed (v.float32 i))

/-- Each integer lane as a float. -/
def convertLanes (signed : Bool) (v : V128) : V128 :=
  ofLanes 32 4 fun i =>
    let x := v.lane 32 i
    BitVec.ofNat 32 (binary32.ofInt (if signed then x.toInt else x.toNat))

/-- The two low 32-bit floats as 64-bit floats. -/
def promoteLow (v : V128) : V128 :=
  ofLanes 64 2 fun i => BitVec.ofNat 64 (binary64.ofValue (v.float32 i))

/-- The two 64-bit floats as 32-bit floats, the upper half zero. -/
def demoteZero (v : V128) : V128 :=
  ofLanes 32 2 fun i => BitVec.ofNat 32 (binary32.ofValue (v.float64 i))

/-- A lane as a scalar. Narrow integer lanes are extended to 32 bits. -/
def extractScalar (v : V128) (shape : LaneShape) (signed : Bool) (i : Nat) : Value :=
  match shape with
  | .i8x16 =>
      let x := v.lane 8 i
      .i32 (UInt32.ofBitVec (if signed then x.signExtend 32 else x.setWidth 32))
  | .i16x8 =>
      let x := v.lane 16 i
      .i32 (UInt32.ofBitVec (if signed then x.signExtend 32 else x.setWidth 32))
  | .i32x4 => .i32 (UInt32.ofBitVec (v.lane 32 i))
  | .i64x2 => .i64 (UInt64.ofBitVec (v.lane 64 i))
  | .f32x4 => .f32 (UInt32.ofBitVec (v.lane 32 i))
  | .f64x2 => .f64 (UInt64.ofBitVec (v.lane 64 i))

/-- The bits of a scalar of a shape, cut to the lane. A value of another type has
none. -/
def scalarBits? (shape : LaneShape) (x : Value) : Option (BitVec shape.width.bits) :=
  match shape, x with
  | .i8x16, .i32 a | .i16x8, .i32 a | .i32x4, .i32 a => some (a.toBitVec.setWidth _)
  | .i64x2, .i64 a => some (a.toBitVec.setWidth _)
  | .f32x4, .f32 a => some (a.toBitVec.setWidth _)
  | .f64x2, .f64 a => some (a.toBitVec.setWidth _)
  | _, _ => none

end V128

namespace VectorOp

/-- Refuse a lane number that the shape does not have. -/
def checkLane (shape : LaneShape) (lane : UInt8) : Except Trap Unit :=
  if shape.width.count ≤ lane.toNat then .error (.noLane lane.toNat shape.width.count) else .ok ()

/-- Run a vector instruction that touches no memory on the operands at the top of
a stack. `lane` and `bytes` are the immediates. -/
def apply (op : VectorOp) (lane : UInt8) (bytes : Option V128) (operands : List Value) :
    Except Trap (List Value) :=
  match op, operands with
  | .const, rest => .ok (.v128 (bytes.getD 0) :: rest)
  | .shuffle, .v128 b :: .v128 a :: rest =>
      match bytes with
      | some indices => .ok (.v128 (V128.shuffle a b indices) :: rest)
      | none => .error .operands
  | .swizzle, .v128 b :: .v128 a :: rest => .ok (.v128 (V128.swizzle a b) :: rest)
  | .splat shape, x :: rest =>
      match V128.scalarBits? shape x with
      | some bits => .ok (.v128 (V128.splat shape.width bits) :: rest)
      | none => .error .operands
  | .extract shape signed, stack => do
      checkLane shape lane
      match stack with
      | .v128 v :: rest => return v.extractScalar shape signed lane.toNat :: rest
      | _ => throw .operands
  | .replace shape, stack => do
      checkLane shape lane
      match stack with
      | x :: .v128 v :: rest =>
          match V128.scalarBits? shape x with
          | some bits =>
              return .v128 (v.setLane shape.width.bits shape.width.count lane.toNat bits) :: rest
          | none => throw .operands
      | _ => throw .operands
  | .not, .v128 a :: rest => .ok (.v128 (~~~a) :: rest)
  | .and, .v128 b :: .v128 a :: rest => .ok (.v128 (a &&& b) :: rest)
  | .andNot, .v128 b :: .v128 a :: rest => .ok (.v128 (a &&& ~~~b) :: rest)
  | .or, .v128 b :: .v128 a :: rest => .ok (.v128 (a ||| b) :: rest)
  | .xor, .v128 b :: .v128 a :: rest => .ok (.v128 (a ^^^ b) :: rest)
  | .bitselect, .v128 c :: .v128 b :: .v128 a :: rest =>
      .ok (.v128 (V128.bitselect a b c) :: rest)
  | .anyTrue, .v128 a :: rest => .ok (.ofBool a.anyTrue :: rest)
  | .allTrue w, .v128 a :: rest => .ok (.ofBool (V128.allTrue w a) :: rest)
  | .bitmask w, .v128 a :: rest => .ok (.i32 (V128.bitmask w a) :: rest)
  | .add w, .v128 b :: .v128 a :: rest => .ok (.v128 (V128.add w a b) :: rest)
  | .sub w, .v128 b :: .v128 a :: rest => .ok (.v128 (V128.sub w a b) :: rest)
  | .narrow w signed, .v128 b :: .v128 a :: rest => .ok (.v128 (V128.narrow w signed a b) :: rest)
  | .extend w high signed, .v128 a :: rest => .ok (.v128 (V128.extend w high signed a) :: rest)
  | .truncate signed, .v128 a :: rest => .ok (.v128 (V128.truncateLanes signed a) :: rest)
  | .convert signed, .v128 a :: rest => .ok (.v128 (V128.convertLanes signed a) :: rest)
  | .promoteLow, .v128 a :: rest => .ok (.v128 a.promoteLow :: rest)
  | .demoteZero, .v128 a :: rest => .ok (.v128 a.demoteZero :: rest)
  | _, _ => .error .operands

end VectorOp

end WasmMachine
