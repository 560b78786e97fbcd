/-
# Vector instructions are lane-wise

What the vector instructions leave for vectors and scalars on top of the stack, the last
operand highest.  `VectorOp.Makes` says which operation each of them is, and what the
operations do to the lanes is in `LanesExact`: lane by lane and for every width, whatever the
vectors.
-/

import WasmMachine.Proofs.Instruction.Families
import WasmMachine.Proofs.Instruction.Numbers
import WasmMachine.Proofs.Numeric.Patterns
import WasmMachine.Proofs.Vector.Lanewise

namespace WasmMachine

/-- The instruction is a vector operation, by its number. -/
def Instruction.IsVector (i : Instruction) (op : VectorOp) : Prop :=
  i.opcode = Opcode.vector ∧ VectorOp.numbers.lookup i.vector.sub = some op

theorem Instruction.leaves_of_vector {i : Instruction} {op : VectorOp} {operands : List Value}
    {value : Value} (known : i.IsVector op) (aside : op.access? = none)
    (applied : ∀ rest, op.apply i.vector.lane i.vector.bytes (operands ++ rest) =
      .ok (value :: rest)) : i.Leaves operands value := by
  intro options rest frame store
  have run : Step.plain options i =
      Step.onOperands (op.apply i.vector.lane i.vector.bytes) := by
    have numeric : Numeric.Operation.ofOpcode i.opcode = none :=
      Numeric.Operation.eq_none_of_le (by rw [known.1]; decide)
    have scalar : MemoryAccess.ofOpcode i.opcode = none := by rw [known.1]; rfl
    have vector : Step.plain options i = Step.vector i.vector := by
      unfold Step.plain
      simp only [numeric, scalar]
      rw [known.1]
      rfl
    rw [vector, Step.vector, ← VectorOp.lookup_numbers, known.2]
    simp only [aside]
  rw [run]
  simp only [Step.onOperands, applied rest]

/-- The scalar of a shape with the low bits of `x`. -/
def LaneShape.pattern (shape : LaneShape) (x : UInt64) : Value :=
  match shape with
  | .i8x16 | .i16x8 | .i32x4 => .i32 x.toUInt32
  | .i64x2 => .i64 x
  | .f32x4 => .f32 x.toUInt32
  | .f64x2 => .f64 x

theorem V128.scalarBits?_pattern (shape : LaneShape) (x : UInt64) :
    V128.scalarBits? shape (shape.pattern x) = some (x.toBitVec.setWidth shape.width.bits) := by
  have cut {k : Nat} (narrow : k ≤ 32) :
      some ((x.toBitVec.setWidth 32).setWidth k) = some (x.toBitVec.setWidth k) :=
    congrArg some (BitVec.setWidth_setWidth_of_le _ narrow)
  cases shape with
  | i64x2 => rfl
  | f64x2 => rfl
  | i8x16 => exact cut (k := 8) (by decide)
  | i16x8 => exact cut (k := 16) (by decide)
  | i32x4 => exact cut (k := 32) (by decide)
  | f32x4 => exact cut (k := 32) (by decide)

theorem V128.extractScalar_unsigned (v : V128) (shape : LaneShape) (lane : Nat) :
    v.extractScalar shape false lane = shape.pattern (.ofNat (v.number shape.width lane)) := by
  have cut : UInt64.ofNat (v.number shape.width lane) =
      .ofBitVec ((v.lane shape.width.bits lane).setWidth 64) := by
    rw [← toNat_lane, ← BitVec.ofNat_toNat]
    rfl
  have narrow (k : Nat) : ((v.lane k lane).setWidth 64).setWidth 32 = (v.lane k lane).setWidth 32 :=
    BitVec.setWidth_setWidth_of_le _ (by decide)
  rw [cut]
  cases shape with
  | i64x2 => exact congrArg (Value.i64 ∘ UInt64.ofBitVec) (BitVec.setWidth_eq _).symm
  | f64x2 => exact congrArg (Value.f64 ∘ UInt64.ofBitVec) (BitVec.setWidth_eq _).symm
  | i8x16 => exact congrArg (Value.i32 ∘ UInt32.ofBitVec) (narrow 8).symm
  | i16x8 => exact congrArg (Value.i32 ∘ UInt32.ofBitVec) (narrow 16).symm
  | i32x4 =>
      exact congrArg (Value.i32 ∘ UInt32.ofBitVec) ((narrow 32).trans (BitVec.setWidth_eq _)).symm
  | f32x4 =>
      exact congrArg (Value.f32 ∘ UInt32.ofBitVec) ((narrow 32).trans (BitVec.setWidth_eq _)).symm

/-- What a vector operation makes of its operands, the last of them on top. -/
inductive VectorOp.Makes (lane : UInt8) (bytes : Option V128) :
    VectorOp → List Value → Value → Prop
  | splat (shape : LaneShape) (x : UInt64) :
      Makes lane bytes (.splat shape) [shape.pattern x]
        (.v128 (V128.splat shape.width (x.toBitVec.setWidth _)))
  | replace (shape : LaneShape) (inside : lane.toNat < shape.width.count) (v : V128) (x : UInt64) :
      Makes lane bytes (.replace shape) [shape.pattern x, .v128 v]
        (.v128 (v.setLane _ shape.width.count lane.toNat (x.toBitVec.setWidth shape.width.bits)))
  | extract (shape : LaneShape) (inside : lane.toNat < shape.width.count) (v : V128) :
      Makes lane bytes (.extract shape false) [.v128 v]
        (shape.pattern (.ofNat (v.number shape.width lane.toNat)))
  | extractSigned (shape : LaneShape) (inside : lane.toNat < shape.width.count)
      (small : shape = .i8x16 ∨ shape = .i16x8) (v : V128) :
      Makes lane bytes (.extract shape true) [.v128 v]
        (.i32 (.ofBitVec (.ofInt 32 (v.signedNumber shape.width lane.toNat))))
  | allTrue (w : LaneWidth) (v : V128) :
      Makes lane bytes (.allTrue w) [.v128 v] (.ofBool (V128.allTrue w v))
  | anyTrue (v : V128) : Makes lane bytes .anyTrue [.v128 v] (.ofBool v.anyTrue)
  | bitmask (w : LaneWidth) (v : V128) :
      Makes lane bytes (.bitmask w) [.v128 v] (.i32 (V128.bitmask w v))
  | add (w : LaneWidth) (a b : V128) :
      Makes lane bytes (.add w) [.v128 b, .v128 a] (.v128 (V128.add w a b))
  | sub (w : LaneWidth) (a b : V128) :
      Makes lane bytes (.sub w) [.v128 b, .v128 a] (.v128 (V128.sub w a b))
  | bitselect (a b c : V128) :
      Makes lane bytes .bitselect [.v128 c, .v128 b, .v128 a] (.v128 (V128.bitselect a b c))
  | swizzle (a s : V128) :
      Makes lane bytes .swizzle [.v128 s, .v128 a] (.v128 (V128.swizzle a s))
  | shuffle (a b indices : V128) (given : bytes = some indices) :
      Makes lane bytes .shuffle [.v128 b, .v128 a] (.v128 (V128.shuffle a b indices))
  | extend (w : LaneWidth) (high signed : Bool) (v : V128) :
      Makes lane bytes (.extend w high signed) [.v128 v] (.v128 (V128.extend w high signed v))
  | narrow (w : LaneWidth) (signed : Bool) (a b : V128) :
      Makes lane bytes (.narrow w signed) [.v128 b, .v128 a] (.v128 (V128.narrow w signed a b))

theorem VectorOp.checkLane_of_lt {shape : LaneShape} {lane : UInt8}
    (inside : lane.toNat < shape.width.count) : checkLane shape lane = .ok () :=
  if_neg (Nat.not_le.mpr inside)

theorem VectorOp.Makes.leaves {i : Instruction} {op : VectorOp} {operands : List Value}
    {value : Value} (makes : op.Makes i.vector.lane i.vector.bytes operands value)
    (known : i.IsVector op) : i.Leaves operands value := by
  refine Instruction.leaves_of_vector known (by cases makes <;> rfl) fun rest => ?_
  generalize i.vector.bytes = bytes at makes
  generalize i.vector.lane = lane at makes
  cases makes with
  | splat shape x =>
      simp only [List.cons_append, List.nil_append, VectorOp.apply, V128.scalarBits?_pattern]
  | replace shape inside v x =>
      simp only [List.cons_append, List.nil_append, VectorOp.apply, checkLane_of_lt inside,
        V128.scalarBits?_pattern]
      rfl
  | extract shape inside v =>
      simp only [List.cons_append, List.nil_append, VectorOp.apply, checkLane_of_lt inside,
        V128.extractScalar_unsigned]
      rfl
  | extractSigned shape inside small v =>
      simp only [List.cons_append, List.nil_append, VectorOp.apply, checkLane_of_lt inside,
        ← V128.toInt_lane]
      obtain rfl | rfl := small <;> rfl
  | shuffle a b indices given =>
      simp only [List.cons_append, List.nil_append, VectorOp.apply, given]
  | _ => rfl

/-- What the operations of a width do to the lanes of any vectors. -/
structure V128.LanesExact (w : LaneWidth) (a b c : V128) : Prop where
  get : ∀ i, (a.lane w.bits i).toNat = a.number w i ∧
    (a.lane w.bits i).toInt = a.signedNumber w i
  set : ∀ (x : UInt64) (i j : Nat), j < w.count →
    (a.setLane w.bits w.count i (x.toBitVec.setWidth w.bits)).number w j =
      if j = i then x.toNat % 2 ^ w.bits else a.number w j
  splat : ∀ (x : UInt64) (i : Nat), i < w.count →
    (V128.splat w (x.toBitVec.setWidth w.bits)).number w i = x.toNat % 2 ^ w.bits
  add : ∀ i, i < w.count →
    (V128.add w a b).number w i = (a.number w i + b.number w i) % 2 ^ w.bits
  sub : ∀ i, i < w.count →
    ((V128.sub w a b).number w i : Int) = ((a.number w i : Int) - b.number w i) % 2 ^ w.bits
  allTrue : V128.allTrue w a = true ↔ ∀ i, i < w.count → a.number w i ≠ 0
  anyTrue : a.anyTrue = true ↔ ∃ i, i < 16 ∧ a.number .w8 i ≠ 0
  /-- There is a bit for each lane, and it is the top bit of the lane. -/
  bitmask : ∀ i, (V128.bitmask w a).toNat.testBit i =
    (decide (i < w.count) && (a.number w i).testBit (w.bits - 1))
  bitselect : ∀ i j, i < 16 → j < 8 →
    ((V128.bitselect a b c).number .w8 i).testBit j =
      if (c.number .w8 i).testBit j then (a.number .w8 i).testBit j
      else (b.number .w8 i).testBit j
  swizzle : ∀ i, i < 16 → (V128.swizzle a b).number .w8 i =
    if b.number .w8 i < 16 then a.number .w8 (b.number .w8 i) else 0
  shuffle : ∀ i, i < 16 → c.number .w8 i < 32 → (V128.shuffle a b c).number .w8 i =
    if c.number .w8 i < 16 then a.number .w8 (c.number .w8 i)
    else b.number .w8 (c.number .w8 i - 16)
  /-- There are no lanes of twice 64 bits. -/
  extend : w ≠ .w64 → ∀ high i, i < w.double.count →
    (V128.extend w high false a).number w.double i = a.number w (V128.extendedLane w high i) ∧
    (V128.extend w high true a).signedNumber w.double i =
      a.signedNumber w (V128.extendedLane w high i)
  /-- The wider lanes are read with their sign, whatever the range they are brought into. -/
  narrow : w ≠ .w64 → ∀ i, i < w.count →
    (V128.narrow w true a b).signedNumber w i =
      max (-2 ^ (w.bits - 1)) (min (2 ^ (w.bits - 1) - 1) (V128.narrowedNumber w a b i)) ∧
    ((V128.narrow w false a b).number w i : Int) =
      max 0 (min (2 ^ w.bits - 1) (V128.narrowedNumber w a b i))
  narrow_extend : w ≠ .w64 → ∀ signed,
    V128.narrow w signed (V128.extend w false signed a) (V128.extend w true signed a) = a

theorem V128.lanesExact (w : LaneWidth) (a b c : V128) : LanesExact w a b c where
  get i := ⟨toNat_lane a w i, toInt_lane a w i⟩
  set x _ _ inside := number_setLane a x inside
  splat x _ inside := number_splat x inside
  add _ inside := number_add a b inside
  sub _ inside := number_sub a b inside
  allTrue := allTrue_iff a
  anyTrue := anyTrue_iff a
  bitmask := testBit_bitmask a
  bitselect _ _ inside small := testBit_bitselect a b c inside small
  swizzle _ inside := number_swizzle a b inside
  shuffle _ inside known := number_shuffle a b c inside known
  extend wide high _ inside :=
    ⟨number_extend wide high a inside, signedNumber_extend wide high a inside⟩
  narrow wide _ inside := ⟨signedNumber_narrow wide a b inside, number_narrow wide a b inside⟩
  narrow_extend wide signed := V128.narrow_extend wide signed a

/-- The vector operations are lane-wise, and the vector instructions are these operations. -/
structure VectorsLanewise : Prop where
  lanes : ∀ w a b c, V128.LanesExact w a b c
  instructions : ∀ (i : Instruction) (op : VectorOp) (operands : List Value) (value : Value),
    i.IsVector op → op.Makes i.vector.lane i.vector.bytes operands value →
    i.Leaves operands value

theorem vectors_lanewise : VectorsLanewise where
  lanes := V128.lanesExact
  instructions _ _ _ _ known makes := makes.leaves known

end WasmMachine
