/-
# Loads and stores

A load or store moves some bytes between the memory and an operand.  A store writes the low
bytes of its operand.  A load reads the number that its bytes stand for and makes an operand
of it: widened with zeros or with copies of the sign, or laid out in the lanes of a vector.

What an instruction is to move is told by its name; that the steps of the machine move just
this is what the lemmas say.
-/

import WasmMachine.Machine.Plain
import WasmMachine.Proofs.Instruction.Families
import WasmMachine.Proofs.Memory.Names
import WasmMachine.Proofs.Memory.Numbers

namespace WasmMachine

/-- A value is what a load of some form makes of a number. -/
def Form.Gives {k : Nat} (form : Form) (n : BitVec k) (v : Value) : Prop :=
  match form with
  | .zeroExtended => v.bits = n.setWidth v.width
  | .signExtended => v.bits = n.signExtend v.width
  | .inLanes from_ signed => ∀ i, i < from_.count / 2 →
      v.bits.extractLsb' (i * (2 * from_.bits)) (2 * from_.bits) =
        if signed then (n.extractLsb' (i * from_.bits) from_.bits).signExtend (2 * from_.bits)
        else (n.extractLsb' (i * from_.bits) from_.bits).setWidth (2 * from_.bits)
  | .splat lanes => ∀ i, i < lanes.count →
      v.bits.extractLsb' (i * lanes.bits) lanes.bits = n.setWidth lanes.bits

namespace Transfer

/-- A value is what the load makes of a number. -/
structure Gives {k : Nat} (t : Transfer) (n : BitVec k) (v : Value) : Prop where
  type : v.type = t.type
  form : t.form.Gives n v

/-- An operand that a store takes: a number or a vector of its type. -/
structure Takes (t : Transfer) (v : Value) : Prop where
  type : v.type = t.type
  number : ∀ r, v ≠ .ref r

theorem Takes.exists_vector {t : Transfer} {v : Value} (takes : t.Takes v)
    (vector : t.type = .v128) : ∃ x, v = .v128 x := by
  have type : v.type = .v128 := takes.type.trans vector
  cases v with
  | v128 x => exact ⟨x, rfl⟩
  | ref r => exact absurd rfl (takes.number r)
  | i32 => exact absurd (show ValType.i32 = .v128 from type) (by decide)
  | i64 => exact absurd (show ValType.i64 = .v128 from type) (by decide)
  | f32 => exact absurd (show ValType.f32 = .v128 from type) (by decide)
  | f64 => exact absurd (show ValType.f64 = .v128 from type) (by decide)

end Transfer

/-! ## Scalars -/

namespace MemoryAccess

variable {op : UInt8} {a : MemoryAccess} {bytes : List UInt8}

/-- Each access moves some byte, and floats are not widened with a sign. -/
theorem unsigned_of_ofOpcode (known : ofOpcode op = some a) :
    0 < a.width ∧ (a.type = .f32 ∨ a.type = .f64 → a.signed = false) := by
  unfold ofOpcode at known
  split at known
  case h_24 => cases known
  all_goals
    cases known
    decide

/-- The number that is read, in the width of the operand. -/
theorem gives_reading {v : Value} (some_byte : 0 < a.width)
    (length : bytes.length = a.width)
    (value : v.bits = BitVec.ofInt v.width (if a.signed
      then signedReading a.width (Decoder.littleEndian bytes)
      else (Decoder.littleEndian bytes : Int))) :
    a.transfer.form.Gives (Bytes.number a.width bytes) v := by
  unfold transfer
  by_cases signed : a.signed = true
  · rw [if_pos signed] at value
    simp only [if_pos signed, Form.Gives]
    rw [value, BitVec.signExtend, Bytes.toInt_number length some_byte]
  · rw [if_neg signed] at value
    simp only [if_neg signed, Form.Gives]
    rw [value, BitVec.ofInt_natCast, ← Bytes.toNat_number length, BitVec.ofNat_toNat]

theorem gives_decode (known : ofOpcode op = some a) (length : bytes.length = a.width) :
    a.transfer.Gives (Bytes.number a.width bytes) (a.decode bytes) := by
  obtain ⟨some_byte, unsigned⟩ := unsigned_of_ofOpcode known
  obtain ⟨type, width, signed, store⟩ := a
  obtain rfl | rfl | rfl | rfl := type_of_ofOpcode known
  · exact ⟨rfl, gives_reading some_byte length (toBitVec_ofInt32 _)⟩
  · exact ⟨rfl, gives_reading some_byte length (toBitVec_ofInt64 _)⟩
  · obtain rfl : signed = false := unsigned (.inl rfl)
    exact ⟨rfl, gives_reading some_byte length (BitVec.ofInt_natCast _ _).symm⟩
  · obtain rfl : signed = false := unsigned (.inr rfl)
    exact ⟨rfl, gives_reading some_byte length (BitVec.ofInt_natCast _ _).symm⟩

theorem encode?_eq (known : ofOpcode op = some a) {v : Value} (takes : a.transfer.Takes v) :
    a.encode? v = some (Encode.littleEndian a.width v.bits.toNat) := by
  have type : v.type = a.type := takes.type
  have scalar := type_of_ofOpcode known
  cases v with
  | i32 bits => exact if_pos type
  | i64 bits => exact if_pos type
  | f32 bits => exact if_pos type
  | f64 bits => exact if_pos type
  | v128 bits =>
      have vector : ValType.v128 = a.type := type
      rw [← vector] at scalar
      exact absurd scalar (by decide)
  | ref r => exact absurd rfl (takes.number r)

end MemoryAccess

/-! ## Vectors -/

namespace VectorOp

variable {op : VectorOp} {t : Transfer} {bytes : List UInt8}

/-- The vector that is put together from the bytes is their number. -/
theorem ofBytes_eq_number {width : Nat} (length : bytes.length = width) :
    V128.ofBytes bytes = (Bytes.number width bytes).setWidth 128 := by
  rw [V128.ofBytes_eq, ← Bytes.toNat_number length, BitVec.ofNat_toNat]

/-- Eight bytes fill half of a vector, and what they hold is widened lane by lane. -/
theorem gives_extend {from_ : LaneWidth} (signed : Bool) (length : bytes.length = 8) :
    (Form.inLanes from_ signed).Gives (Bytes.number 8 bytes)
      (.v128 (V128.extend from_ false signed (V128.ofBytes bytes))) := by
  intro i inside
  have whole : from_.count / 2 * (2 * from_.bits) = 128 := by cases from_ <;> rfl
  have half : from_.count / 2 * from_.bits = 64 := by cases from_ <;> rfl
  have below : i * from_.bits + from_.bits ≤ 64 := by
    rw [← Nat.succ_mul, ← half]
    exact Nat.mul_le_mul_right from_.bits inside
  have lane : (V128.ofBytes bytes).lane from_.bits (0 + i) =
      (Bytes.number 8 bytes).extractLsb' (i * from_.bits) from_.bits := by
    rw [Nat.zero_add, V128.lane, ofBytes_eq_number length,
      BitVec.extractLsb'_setWidth_of_le (Nat.le_trans below (by decide))]
  refine (V128.lane_ofLanes _ inside (Nat.le_of_eq whole)).trans ?_
  rw [← lane]
  rfl

/-- The bytes fill the lowest lane, which is repeated. -/
theorem gives_splat {lanes : LaneWidth} (length : bytes.length = lanes.bytes) :
    (Form.splat lanes).Gives (Bytes.number lanes.bytes bytes)
      (.v128 (V128.splat lanes ((V128.ofBytes bytes).lane lanes.bits 0))) := by
  intro i inside
  have whole : lanes.count * lanes.bits = 128 := by cases lanes <;> rfl
  have narrow : lanes.bits ≤ 128 := by cases lanes <;> decide
  have all : lanes.bits ≤ 8 * lanes.bytes := by cases lanes <;> decide
  refine (V128.lane_ofLanes _ inside (Nat.le_of_eq whole)).trans ?_
  rw [V128.lane, Nat.zero_mul, ofBytes_eq_number length,
    BitVec.extractLsb'_setWidth_of_le (by rwa [Nat.zero_add]), BitVec.setWidth_eq_extractLsb' all]

theorem gives_decode (known : op.transfer? = some t) (length : bytes.length = t.width) :
    t.Gives (Bytes.number t.width bytes) (.v128 (op.decode bytes)) := by
  cases op <;> cases known
  case loadExtend from_ signed => exact ⟨rfl, gives_extend signed length⟩
  case loadSplat lanes => exact ⟨rfl, gives_splat length⟩
  all_goals exact ⟨rfl, ofBytes_eq_number length⟩

/-- The only store takes a whole vector. -/
theorem toBytes_of_store (known : op.transfer? = some t) (stores : t.store = true) (v : V128) :
    v.toBytes = Encode.littleEndian t.width (Value.v128 v).bits.toNat := by
  cases op <;> cases known
  case store => exact v.toBytes_eq
  all_goals cases stores

end VectorOp

/-! ## Instructions -/

namespace Instruction

/-- An instruction loads something, with a constant part of its address. -/
structure Loads (i : Instruction) (t : Transfer) (offset : UInt64) : Prop where
  known : i.transfer? = some (t, offset)
  loads : t.store = false

/-- An instruction stores something, with a constant part of its address. -/
structure Stores (i : Instruction) (t : Transfer) (offset : UInt64) : Prop where
  known : i.transfer? = some (t, offset)
  stores : t.store = true

variable {i : Instruction} {t : Transfer} {offset : UInt64}

theorem plain_scalar {a : MemoryAccess} (scalar : MemoryAccess.ofOpcode i.opcode = some a)
    (options : Options) : Step.plain options i = Step.memoryAccess a i.memArg.offset := by
  unfold Step.plain
  simp only [MemoryAccess.numeric_eq_none scalar, scalar]

theorem memoryAccess_load {a : MemoryAccess} (loads : a.store = false) (offset : UInt64) :
    Step.memoryAccess a offset =
      (do let bytes ← Step.loadBytes offset a.width; Step.push (a.decode bytes)) :=
  if_neg (ne_true_of_eq_false loads)

/-- A transfer is that of a scalar or that of a vector, and this is what runs. -/
theorem plain_transfer (known : i.transfer? = some (t, offset)) (options : Options) :
    (∃ a, MemoryAccess.ofOpcode i.opcode = some a ∧ t = a.transfer ∧
      Step.plain options i = Step.memoryAccess a offset) ∨
    ∃ op : VectorOp, op.transfer? = some t ∧
      Step.plain options i = Step.vectorAccess op t.width t.store offset := by
  rw [transfer?_eq] at known
  split at known
  · next a scalar =>
      cases known
      exact .inl ⟨a, scalar, rfl, plain_scalar scalar options⟩
  · next scalar =>
      split at known
      · next code =>
          obtain ⟨_, found, same⟩ := Option.map_eq_some_iff.mp known
          cases same
          obtain ⟨op, number, moves⟩ := Option.bind_eq_some_iff.mp found
          obtain ⟨⟨width, store⟩, access, rfl⟩ := Option.map_eq_some_iff.mp moves
          have numeric : Numeric.Operation.ofOpcode i.opcode = none :=
            Numeric.Operation.eq_none_of_le (by rw [code]; decide)
          refine .inr ⟨op, moves, ?_⟩
          unfold Step.plain
          simp only [numeric, scalar]
          rw [code]
          show Step.vector i.vector = _
          unfold Step.vector
          simp only [number, access]
      · cases known

theorem width_le (known : i.transfer? = some (t, offset)) : t.width ≤ 16 := by
  obtain ⟨a, scalar, rfl, -⟩ | ⟨op, moves, -⟩ := plain_transfer known {}
  · exact MemoryAccess.width_le scalar
  · obtain ⟨_, access, rfl⟩ := Option.map_eq_some_iff.mp moves
    exact VectorOp.width_le access

/-- A load reads its bytes and pushes what its name says. -/
theorem Loads.exists_decode (moves : i.Loads t offset) (options : Options) :
    ∃ decode : List UInt8 → Value,
      (∀ bytes, bytes.length = t.width → t.Gives (Bytes.number t.width bytes) (decode bytes)) ∧
      Step.plain options i =
        (do let bytes ← Step.loadBytes offset t.width; Step.push (decode bytes)) := by
  obtain ⟨known, loads⟩ := moves
  obtain ⟨a, scalar, rfl, runs⟩ | ⟨op, vector, runs⟩ := plain_transfer known options
  · exact ⟨a.decode, fun bytes length => MemoryAccess.gives_decode scalar length,
      runs.trans (memoryAccess_load loads offset)⟩
  · exact ⟨fun bytes => .v128 (op.decode bytes),
      fun bytes length => VectorOp.gives_decode vector length,
      runs.trans (if_neg (ne_true_of_eq_false loads))⟩

/-- A store takes its operand and writes the low bytes of it. -/
theorem Stores.plain_eq (moves : i.Stores t offset) (options : Options) {s : Scope} {v : Value}
    {rest : List Value} (takes : t.Takes v) (top : s.operands = v :: rest) :
    Step.plain options i s =
      Step.storeBytes offset (Encode.littleEndian t.width v.bits.toNat)
        { s with operands := rest } := by
  obtain ⟨known, stores⟩ := moves
  obtain ⟨operands, frame, store⟩ := s
  obtain rfl : operands = v :: rest := top
  obtain ⟨a, scalar, rfl, runs⟩ | ⟨op, vector, runs⟩ := plain_transfer known options
  · have up : a.store = true := stores
    rw [runs, Step.memoryAccess, if_pos up]
    simp only [bind, EStateM.bind, Step.popValue, MemoryAccess.encode?_eq scalar takes]
    rfl
  · rw [runs, Step.vectorAccess, if_pos stores]
    obtain ⟨_, access, rfl⟩ := Option.map_eq_some_iff.mp vector
    obtain ⟨x, rfl⟩ := takes.exists_vector rfl
    simp only [bind, EStateM.bind, Step.popValue, VectorOp.toBytes_of_store vector stores]

end Instruction

end WasmMachine
