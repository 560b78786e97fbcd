/-
# How immediates are spelled

Which bytes spell an immediate does not depend on the opcode in front of them,
only whether the immediate suits the opcode does.  Numbers may be longer than
necessary everywhere; the writer takes the shortest spelling.
-/

import WasmMachine.Instruction.Decode
import WasmMachine.Instruction.Encode
import WasmMachine.Proofs.Instruction.Families
import WasmMachine.Proofs.Binary.Vector
import WasmMachine.Proofs.Instruction.WellFormed
import WasmMachine.Proofs.Vector.Lanes

namespace WasmMachine

open Decoder Leb128

/-! ## Spellings -/

/-- The bytes spell a block type. -/
structure BlockType.Spells (bytes : List UInt8) (type : BlockType) : Prop where
  number : Signed 33 bytes type.toInt
  known : type.spellable

/-- The bytes spell the alignment and the offset of a memory access. -/
inductive MemArg.Spells : List UInt8 → MemArg → Prop
  | intro {first second : List UInt8} {align offset : UInt32} :
      Unsigned first align → align < 64 → Unsigned second offset →
      Spells (first ++ second) ⟨align, offset.toUInt64⟩

/-- The bytes spell the fields that a sort of vector instruction has. -/
inductive VectorImmediateSort.Spells :
    VectorImmediateSort → List UInt8 → UInt8 → Option MemArg → Option V128 → Prop
  | memArg {bytes : List UInt8} {arg : MemArg} :
      arg.Spells bytes → Spells .memArg bytes 0 (some arg) none
  | bytes {bytes : List UInt8} :
      bytes.length = 16 → Spells .bytes bytes 0 none (some (V128.ofBytes bytes))
  | lane {lane : UInt8} : Spells .lane [lane] lane none none
  | nothing : Spells .nothing [] 0 none none

/-- The bytes spell an immediate that is no block type. -/
inductive Immediate.Spells : List UInt8 → Immediate → Prop
  | branch {bytes : List UInt8} {label : UInt32} :
      Unsigned bytes label → Spells bytes (.branch label)
  | branchTable {bytes last : List UInt8} {labels : List UInt32} {fallback : UInt32} :
      Counted Unsigned bytes labels → Unsigned last fallback →
      Spells (bytes ++ last) (.branchTable labels fallback)
  | call {bytes : List UInt8} {func : UInt32} : Unsigned bytes func → Spells bytes (.call func)
  | callIndirect {first second : List UInt8} {type table : UInt32} :
      Unsigned first type → Unsigned second table →
      Spells (first ++ second) (.callIndirect type table)
  | localIndex {bytes : List UInt8} {index : UInt32} :
      Unsigned bytes index → Spells bytes (.localIndex index)
  | globalIndex {bytes : List UInt8} {index : UInt32} :
      Unsigned bytes index → Spells bytes (.globalIndex index)
  | tableIndex {bytes : List UInt8} {index : UInt32} :
      Unsigned bytes index → Spells bytes (.tableIndex index)
  | memoryIndex {bytes : List UInt8} {index : UInt32} :
      Unsigned bytes index → Spells bytes (.memoryIndex index)
  | memory {bytes : List UInt8} {arg : MemArg} : arg.Spells bytes → Spells bytes (.memory arg)
  | i32 {bytes : List UInt8} {bits : UInt32} :
      Signed 32 bytes bits.toInt32.toInt → Spells bytes (.i32 bits)
  | i64 {bytes : List UInt8} {bits : UInt64} :
      Signed 64 bytes bits.toInt64.toInt → Spells bytes (.i64 bits)
  | f32 {bytes : List UInt8} :
      bytes.length = 4 → Spells bytes (.f32 (UInt32.ofNat (littleEndian bytes)))
  | f64 {bytes : List UInt8} :
      bytes.length = 8 → Spells bytes (.f64 (UInt64.ofNat (littleEndian bytes)))
  | refNull {type : ValType} : Spells [type.code] (.refNull type)
  | refFunc {bytes : List UInt8} {func : UInt32} :
      Unsigned bytes func → Spells bytes (.refFunc func)
  | select {head : List UInt8} {type : ValType} :
      Unsigned head 1 → Spells (head ++ [type.code]) (.select [type])
  | misc {head body : List UInt8} {sub : UInt32} {operands : List UInt32} :
      Unsigned head sub → Parts Unsigned body operands →
      Spells (head ++ body) (.misc sub operands)
  | simd {head body : List UInt8} {sub : UInt32} {op : VectorOp} {lane : UInt8}
      {arg : Option MemArg} {bytes : Option V128} :
      Unsigned head sub → VectorOp.ofCode sub = some op → op.immediate.Spells body lane arg bytes →
      Spells (head ++ body) (.simd sub lane arg bytes)

/-! ## Reading what is spelled -/

theorem Decoder.Reads.valType {type : ValType} (valid : type.isValid) :
    Reads Decoder.valType [type.code] type := by
  refine Reads.bind_pure (Reads.byte type.code) ?_
  simp [valid]

theorem BlockType.toInt_neg_of_shorthand {type : BlockType} (known : type.shorthand?.isSome) :
    type.toInt < 0 := by
  unfold BlockType.shorthand? at known
  repeat' split at known
  case isFalse => cases known
  all_goals
    next equal =>
      rw [beq_iff_eq] at equal
      subst equal
      decide

theorem BlockType.Spells.reads {bytes : List UInt8} {type : BlockType}
    (spells : type.Spells bytes) : Reads Decoder.blockType bytes type := by
  refine Reads.bind_pure (Reads.signed (by decide) spells.number) ?_
  have back : Int32.ofInt type.toInt = type := Int32.ofInt_toInt type
  have known := spells.known
  have upper : type.toInt < 2 ^ 31 := Int32.toInt_lt type
  simp only [throw_bind, back]
  unfold BlockType.spellable at known
  by_cases negative : type.toInt < 0
  · have shorthand : type.shorthand?.isSome := by
      simpa [Int.not_le.mpr negative] using known
    simp [negative, Option.isSome_iff_ne_none.mp shorthand]
  · rw [if_neg negative, if_neg (Int.not_le.mpr upper)]

theorem MemArg.Spells.reads {bytes : List UInt8} {arg : MemArg} (spells : arg.Spells bytes) :
    Reads Decoder.memArg bytes arg := by
  obtain ⟨first, small, second⟩ := spells
  refine Reads.bind (Reads.u32 first) ?_
  simp only [throw_bind]
  refine Reads.guard (UInt32.not_le.mpr small) ?_
  exact Reads.bind_pure (Reads.u32 second) rfl

theorem Decoder.Reads.branchTable (early : Bool) {bytes last : List UInt8}
    {labels : List UInt32} {fallback : UInt32} (counted : Counted Unsigned bytes labels)
    (reads : Unsigned last fallback) :
    Reads (Decoder.branchTable early) (bytes ++ last) (.branchTable labels fallback) := by
  obtain ⟨few, head, body, rfl, number, parts⟩ := counted
  have length : (UInt32.ofNat labels.length).toNat = labels.length :=
    UInt32.toNat_ofNat_of_lt' few
  have enough := parts.length_le fun _ _ number => List.length_pos_iff.mp number.groups.length_pos
  simp only [Decoder.branchTable, failIn_bind, List.append_assoc]
  refine Reads.checked early number ?_ ?_
  · rw [List.length_append]
    omega
  · rw [length]
    exact Reads.bind (Reads.items (fun _ _ _ => Reads.u32) parts)
      (Reads.bind_pure (Reads.u32 reads) rfl)

theorem Decoder.Reads.miscImmediate {head body : List UInt8} {sub : UInt32}
    {operands : List UInt32} {op : MiscOp} (number : Unsigned head sub)
    (known : MiscOp.ofCode sub = some op) (enough : operands.length = op.operandCount)
    (parts : Parts Unsigned body operands) :
    Reads Decoder.miscImmediate (head ++ body) (.misc sub operands) := by
  refine Reads.bind (Reads.u32 number) ?_
  rw [known]
  have reads : Reads (Decoder.items operands.length fun _ => Decoder.u32) body operands :=
    Reads.items (fun _ _ _ => Reads.u32) parts
  rw [enough] at reads
  exact Reads.bind_pure reads rfl

theorem Decoder.Reads.vectorImmediate {head body : List UInt8} {sub : UInt32} {op : VectorOp}
    {lane : UInt8} {arg : Option MemArg} {bytes : Option V128} (number : Unsigned head sub)
    (known : VectorOp.ofCode sub = some op) (spells : op.immediate.Spells body lane arg bytes)
    (takes : op.takes lane arg bytes) :
    Reads Decoder.vectorImmediate (head ++ body) (.simd sub lane arg bytes) := by
  refine Reads.bind (Reads.u32 number) ?_
  simp only [known]
  unfold VectorOp.takes at takes
  generalize op.immediate = sort at spells takes
  cases spells with
  | memArg spells => exact Reads.bind_pure spells.reads rfl
  | bytes sixteen =>
      have reads := Reads.bytes body
      rw [sixteen] at reads
      exact Reads.bind_pure reads rfl
  | lane =>
      refine Reads.bind_pure (Reads.byte lane) ?_
      have inside : lane.toNat < op.laneCount := by
        simpa [VectorImmediateSort.allows] using takes
      simp only [throw_bind]
      exact if_neg (Nat.not_le.mpr inside)
  | nothing => exact Reads.pure _

private theorem immediate_of_access (early : Bool) {op : UInt8}
    (known : (MemoryAccess.ofOpcode op).isSome) :
    Decoder.immediate early op = (do return some (.memory (← Decoder.memArg))) := by
  unfold Decoder.immediate
  split <;> first
    | exact absurd known (by decide)
    | rw [if_pos known]

private theorem immediate_of_numeric (early : Bool) {op : UInt8}
    (known : (Numeric.Operation.ofOpcode op).isSome) :
    Decoder.immediate early op = pure none := by
  have access := MemoryAccess.eq_none_of_numeric known
  have bounds := Numeric.Operation.opcode_bounds known
  unfold Decoder.immediate
  split <;> first
    | exact absurd bounds (by decide)
    | rw [access, if_neg (by decide), if_pos known]

/-- A 32-bit pattern comes back from the signed number it stands for. -/
private theorem ofInt_toInt32 (bits : UInt32) : UInt32.ofInt bits.toInt32.toInt = bits := by
  have value : bits.toInt32.toInt = (bits.toNat : Int).bmod (2 ^ 32) :=
    BitVec.toInt_eq_toNat_bmod _
  have small := bits.toNat_lt
  have pattern : (bits.toNat : Int).bmod (2 ^ 32) % 2 ^ 32 = bits.toNat :=
    Int.bmod_emod.trans (Int.emod_eq_of_lt (by omega) (by omega))
  rw [UInt32.ofInt, value, pattern, Int.toNat_natCast, UInt32.ofNat_toNat]

/-- A 64-bit pattern comes back from the signed number it stands for. -/
private theorem ofInt_toInt64 (bits : UInt64) : UInt64.ofInt bits.toInt64.toInt = bits := by
  have value : bits.toInt64.toInt = (bits.toNat : Int).bmod (2 ^ 64) :=
    BitVec.toInt_eq_toNat_bmod _
  have small := bits.toNat_lt
  have pattern : (bits.toNat : Int).bmod (2 ^ 64) % 2 ^ 64 = bits.toNat :=
    Int.bmod_emod.trans (Int.emod_eq_of_lt (by omega) (by omega))
  rw [UInt64.ofInt, value, pattern, Int.toNat_natCast, UInt64.ofNat_toNat]

/-- An instruction without an immediate takes no more bytes. -/
theorem Decoder.Reads.noImmediate (early : Bool) {op : UInt8} (suits : Immediate.suits op none) :
    Reads (Decoder.immediate early op) [] none := by
  simp only [Immediate.suits, Bool.or_eq_true, beq_iff_eq] at suits
  rcases suits with (((((rfl | rfl) | rfl) | rfl) | rfl) | rfl) | known
  case inr =>
    rw [immediate_of_numeric early known]
    exact Reads.pure none
  all_goals exact Reads.pure none

/-- An immediate that suits its opcode is read from each of its spellings. -/
theorem Immediate.Spells.reads (early : Bool) {op : UInt8} {bytes : List UInt8} {imm : Immediate}
    (spells : imm.Spells bytes) (suits : Immediate.suits op (some imm)) :
    Reads (Decoder.immediate early op) bytes (some imm) := by
  cases spells
  all_goals simp only [Immediate.suits, Bool.or_eq_true, Bool.and_eq_true, beq_iff_eq] at suits
  case branch number =>
    rcases suits with rfl | rfl
    all_goals exact Reads.bind_pure (Reads.u32 number) rfl
  case branchTable counted last =>
    obtain ⟨rfl, -⟩ := suits
    exact Reads.bind_pure (Reads.branchTable early counted last) rfl
  case call number =>
    subst suits
    exact Reads.bind_pure (Reads.u32 number) rfl
  case callIndirect first second =>
    subst suits
    exact Reads.bind (Reads.u32 first) (Reads.bind_pure (Reads.u32 second) rfl)
  case localIndex number =>
    rcases suits with (rfl | rfl) | rfl
    all_goals exact Reads.bind_pure (Reads.u32 number) rfl
  case globalIndex number =>
    rcases suits with rfl | rfl
    all_goals exact Reads.bind_pure (Reads.u32 number) rfl
  case tableIndex number =>
    rcases suits with rfl | rfl
    all_goals exact Reads.bind_pure (Reads.u32 number) rfl
  case memoryIndex number =>
    rcases suits with rfl | rfl
    all_goals exact Reads.bind_pure (Reads.u32 number) rfl
  case memory spells =>
    rw [immediate_of_access early suits.1]
    exact Reads.bind_pure spells.reads rfl
  case i32 bits number =>
    subst suits
    refine Reads.bind_pure (Reads.signed (by decide) number) ?_
    rw [ofInt_toInt32]
  case i64 bits number =>
    subst suits
    refine Reads.bind_pure (Reads.signed (by decide) number) ?_
    rw [ofInt_toInt64]
  case f32 four =>
    subst suits
    exact Reads.bind_pure (Reads.u32le four) rfl
  case f64 eight =>
    subst suits
    exact Reads.bind_pure (Reads.u64le eight) rfl
  case refNull =>
    obtain ⟨rfl, reference⟩ := suits
    refine Reads.bind_pure (Reads.bind_pure (Reads.valType ?_) ?_) rfl
    · exact ValType.isValid_of_isRef reference
    · simp [reference]
  case refFunc number =>
    subst suits
    exact Reads.bind_pure (Reads.u32 number) rfl
  case select number =>
    obtain ⟨⟨rfl, -⟩, valid⟩ := suits
    refine Reads.bind_pure (Reads.bind (Reads.u32 number) ?_) rfl
    simp only [failIn_bind]
    exact Reads.guard (by decide) (Reads.bind_pure (Reads.valType (by simpa using valid)) rfl)
  case misc number parts =>
    obtain ⟨rfl, known⟩ := suits
    obtain ⟨op, known, enough⟩ := (Option.any_eq_true _ _).mp known
    exact Reads.bind_pure (Reads.miscImmediate number known (by simpa using enough) parts) rfl
  case simd number known spells =>
    obtain ⟨rfl, takes⟩ := suits
    rw [known] at takes
    exact Reads.bind_pure (Reads.vectorImmediate number known spells takes) rfl

/-! ## What is read is a spelling -/

namespace Decoder

theorem Yields.valType : Yields Decoder.valType fun bytes type =>
    bytes = [type.code] ∧ type.isValid := by
  refine Yields.bind Yields.byte fun bytes b taken => ?_
  subst taken
  simp only [throw_bind]
  refine Yields.ite (fun _ => Yields.throw _) fun valid => Yields.pure ?_
  exact ⟨by simp, by simpa using valid⟩

/-- Numbers below the signed 32-bit range come out positive. -/
private theorem toInt_ofInt_of_lt {v : Int} (lower : -2 ^ 32 ≤ v) (upper : v < -2 ^ 31) :
    (Int32.ofInt v).toInt = v + 2 ^ 32 := by
  have wrapped : (v + (4294967296 : Nat)).bmod 4294967296 = v.bmod 4294967296 :=
    Int.add_bmod_right v 4294967296
  have inside : (v + (4294967296 : Nat)).bmod 4294967296 = v + (4294967296 : Nat) :=
    Int.bmod_eq_of_le (by omega) (by omega)
  rw [Int32.toInt_ofInt, Int32.size, ← wrapped, inside]
  rfl

theorem Yields.blockType : Yields Decoder.blockType fun bytes type => type.Spells bytes := by
  refine Yields.bind (Yields.signed (by decide)) fun bytes v number => ?_
  have lower := number.lower
  have upper := number.upper
  simp only [throw_bind]
  refine Yields.ite (fun negative => ?_) fun positive => ?_
  · refine Yields.ite (fun _ => Yields.throw _) fun known => Yields.pure ?_
    have shorthand : (BlockType.shorthand? (Int32.ofInt v)).isSome := by
      simpa [Option.isSome_iff_ne_none] using known
    have back : (Int32.ofInt v).toInt = v := by
      have sign := BlockType.toInt_neg_of_shorthand shorthand
      by_cases narrow : -2 ^ 31 ≤ v
      · exact Int32.toInt_ofInt_of_le narrow (by omega)
      · rw [toInt_ofInt_of_lt (by omega) (by omega)] at sign
        omega
    rw [List.append_nil]
    exact ⟨back.symm ▸ number, by simp [BlockType.spellable, shorthand]⟩
  · refine Yields.ite (fun _ => Yields.throw _) fun room => Yields.pure ?_
    have back : (Int32.ofInt v).toInt = v := Int32.toInt_ofInt_of_le (by omega) (by omega)
    rw [List.append_nil]
    refine ⟨?_, ?_⟩
    · rw [back]
      exact number
    · simp [BlockType.spellable, back, Int.not_lt.mp positive]

theorem Yields.memArg : Yields Decoder.memArg fun bytes arg =>
    arg.Spells bytes ∧ arg.spellable := by
  refine Yields.bind Yields.u32 fun first align number => ?_
  simp only [throw_bind]
  refine Yields.ite (fun _ => Yields.throw _) fun small => ?_
  refine Yields.bind Yields.u32 fun second offset number' => Yields.pure ?_
  rw [UInt32.not_le] at small
  rw [List.append_nil]
  refine ⟨.intro number small number', ?_⟩
  simpa [MemArg.spellable, small] using offset.toNat_lt

theorem Yields.branchTable (early : Bool) : Yields (Decoder.branchTable early) fun bytes imm =>
    imm.Spells bytes ∧ Immediate.suits Opcode.brTable (some imm) := by
  simp only [Decoder.branchTable, failIn_bind]
  refine Yields.checked early (fun _ _ => Yields.failIn _ _) fun head n number => ?_
  refine Yields.bind (Yields.items (fun _ => Yields.u32) n.toNat) fun body labels found => ?_
  refine Yields.bind Yields.u32 fun last fallback number' => Yields.pure ?_
  obtain ⟨length, parts⟩ := found
  have back : UInt32.ofNat labels.length = n := by rw [length, UInt32.ofNat_toNat]
  have few : labels.length < 2 ^ 32 := length ▸ n.toNat_lt
  rw [List.append_nil, ← List.append_assoc]
  refine ⟨.branchTable ⟨few, head, body, rfl, back ▸ number, parts⟩ number', ?_⟩
  simpa [Immediate.suits] using few

theorem Yields.miscImmediate : Yields Decoder.miscImmediate fun bytes imm =>
    imm.Spells bytes ∧ Immediate.suits Opcode.misc (some imm) := by
  refine Yields.bind Yields.u32 fun head sub number => ?_
  split
  · exact Yields.throw _
  · next op known =>
      refine Yields.bind (Yields.items (fun _ => Yields.u32) _) fun body operands found => ?_
      obtain ⟨length, parts⟩ := found
      refine Yields.pure ?_
      rw [List.append_nil]
      exact ⟨.misc number parts, by simp [Immediate.suits, known, length]⟩

theorem Yields.vectorImmediate : Yields Decoder.vectorImmediate fun bytes imm =>
    imm.Spells bytes ∧ Immediate.suits Opcode.vector (some imm) := by
  refine Yields.bind Yields.u32 fun head sub number => ?_
  split
  · exact Yields.throw _
  · next op known =>
      have spells : ∀ {body lane arg bytes}, op.immediate.Spells body lane arg bytes →
          op.takes lane arg bytes → (Immediate.simd sub lane arg bytes).Spells (head ++ body) ∧
            Immediate.suits Opcode.vector (some (.simd sub lane arg bytes)) := by
        intro body lane arg bytes fields takes
        exact ⟨.simd number known fields, by simp only [Immediate.suits, known]; simpa using takes⟩
      split
      · next sort =>
          refine Yields.bind Yields.memArg fun body arg found => Yields.pure ?_
          obtain ⟨fields, spellable⟩ := found
          rw [List.append_nil]
          refine spells (by rw [sort]; exact .memArg fields) ?_
          simpa [VectorOp.takes, sort, VectorImmediateSort.allows] using spellable
      · next sort =>
          refine Yields.bind (Yields.bytes 16) fun body bytes found => Yields.pure ?_
          obtain ⟨rfl, sixteen⟩ := found
          rw [List.append_nil]
          refine spells (by rw [sort]; exact .bytes sixteen) ?_
          simp [VectorOp.takes, sort, VectorImmediateSort.allows]
      · next sort =>
          refine Yields.bind Yields.byte fun body lane taken => ?_
          subst taken
          simp only [throw_bind]
          refine Yields.ite (fun _ => Yields.throw _) fun inside => Yields.pure ?_
          rw [List.append_nil]
          refine spells (by rw [sort]; exact .lane) ?_
          have named : lane.toNat < op.laneCount := Nat.not_le.mp inside
          simpa [VectorOp.takes, sort, VectorImmediateSort.allows] using named
      · next sort =>
          refine Yields.pure (spells (by rw [sort]; exact .nothing) ?_)
          simp [VectorOp.takes, sort, VectorImmediateSort.allows]

theorem Yields.selectImmediate : Yields Decoder.selectImmediate fun bytes imm =>
    imm.Spells bytes ∧ Immediate.suits Opcode.selectTyped (some imm) := by
  refine Yields.bind Yields.u32 fun head n number => ?_
  simp only [failIn_bind]
  refine Yields.ite (fun _ => Yields.failIn _ _) fun one => ?_
  refine Yields.bind Yields.valType fun body type found => Yields.pure ?_
  obtain ⟨rfl, valid⟩ := found
  obtain rfl : n = 1 := by simpa using one
  rw [List.append_nil]
  exact ⟨.select number, by simp [Immediate.suits, valid]⟩

theorem Yields.nullImmediate : Yields Decoder.nullImmediate fun bytes imm =>
    imm.Spells bytes ∧ Immediate.suits Opcode.refNull (some imm) := by
  refine Yields.bind Yields.valType fun bytes type found => ?_
  obtain ⟨rfl, valid⟩ := found
  simp only [throw_bind]
  refine Yields.ite (fun _ => Yields.throw _) fun reference => Yields.pure ?_
  exact ⟨.refNull, by simpa [Immediate.suits] using reference⟩

/-- A signed number in 32 bits comes back from its pattern. -/
private theorem toInt32_ofInt {v : Int} (lower : -2 ^ 31 ≤ v) (upper : v < 2 ^ 31) :
    (UInt32.ofInt v).toInt32.toInt = v := by
  have value : (UInt32.ofInt v).toInt32.toInt = ((UInt32.ofInt v).toNat : Int).bmod (2 ^ 32) :=
    BitVec.toInt_eq_toNat_bmod _
  have pattern : ((UInt32.ofInt v).toNat : Int) = v % 2 ^ 32 := by
    rw [UInt32.ofInt, UInt32.toNat_ofNat_of_lt' (by show _ < 2 ^ 32; omega)]
    omega
  have inside : v.bmod (2 ^ 32) = v := Int.bmod_eq_of_le (by omega) (by omega)
  rw [value, pattern]
  exact (Int.emod_bmod ..).trans inside

/-- A signed number in 64 bits comes back from its pattern. -/
private theorem toInt64_ofInt {v : Int} (lower : -2 ^ 63 ≤ v) (upper : v < 2 ^ 63) :
    (UInt64.ofInt v).toInt64.toInt = v := by
  have value : (UInt64.ofInt v).toInt64.toInt = ((UInt64.ofInt v).toNat : Int).bmod (2 ^ 64) :=
    BitVec.toInt_eq_toNat_bmod _
  have pattern : ((UInt64.ofInt v).toNat : Int) = v % 2 ^ 64 := by
    rw [UInt64.ofInt, UInt64.toNat_ofNat_of_lt' (by show _ < 2 ^ 64; omega)]
    omega
  have inside : v.bmod (2 ^ 64) = v := Int.bmod_eq_of_le (by omega) (by omega)
  rw [value, pattern]
  exact (Int.emod_bmod ..).trans inside

end Decoder

/-- The bytes behind an opcode spell its immediate; without an immediate there are
none. -/
def Immediate.Fills (bytes : List UInt8) : Option Immediate → Prop
  | none => bytes = []
  | some imm => imm.Spells bytes

/-- The bytes spell an immediate that suits the opcode. -/
def Immediate.Follows (op : UInt8) (bytes : List UInt8) (imm : Option Immediate) : Prop :=
  Immediate.Fills bytes imm ∧ Immediate.suits op imm

namespace Decoder

private theorem Yields.index {op : UInt8} {make : UInt32 → Immediate}
    (spells : ∀ bytes n, Unsigned bytes n → (make n).Spells bytes)
    (suits : ∀ n, Immediate.suits op (some (make n))) :
    Yields (do return some (make (← Decoder.u32))) (Immediate.Follows op) := by
  refine Yields.bind Yields.u32 fun bytes n number => Yields.pure ?_
  rw [List.append_nil]
  exact ⟨spells bytes n number, suits n⟩

private theorem Yields.follows {op : UInt8} {step : Decoder Immediate}
    (yields : Yields step fun bytes imm =>
      imm.Spells bytes ∧ Immediate.suits op (some imm)) :
    Yields (do return some (← step)) (Immediate.Follows op) := by
  refine Yields.bind yields fun bytes imm found => Yields.pure ?_
  rw [List.append_nil]
  exact found

/-- What is read behind an opcode is a spelling of an immediate that suits it. -/
theorem Yields.immediate (early : Bool) (op : UInt8) :
    Yields (Decoder.immediate early op) (Immediate.Follows op) := by
  unfold Decoder.immediate
  split
  case h_1 | h_2 => exact Yields.index (fun _ _ => .branch) fun _ => rfl
  case h_3 => exact Yields.follows (Yields.branchTable early)
  case h_4 => exact Yields.index (fun _ _ => .call) fun _ => rfl
  case h_5 =>
    refine Yields.bind Yields.u32 fun first type number => ?_
    refine Yields.bind Yields.u32 fun second table number' => Yields.pure ?_
    rw [List.append_nil]
    exact ⟨.callIndirect number number', rfl⟩
  case h_12 => exact Yields.follows Yields.selectImmediate
  case h_13 | h_14 | h_15 => exact Yields.index (fun _ _ => .localIndex) fun _ => rfl
  case h_16 | h_17 => exact Yields.index (fun _ _ => .globalIndex) fun _ => rfl
  case h_18 | h_19 => exact Yields.index (fun _ _ => .tableIndex) fun _ => rfl
  case h_20 | h_21 => exact Yields.index (fun _ _ => .memoryIndex) fun _ => rfl
  case h_22 =>
    refine Yields.bind (Yields.signed (by decide)) fun bytes v number => Yields.pure ?_
    rw [List.append_nil]
    exact ⟨.i32 ((toInt32_ofInt number.lower number.upper).symm ▸ number), rfl⟩
  case h_23 =>
    refine Yields.bind (Yields.signed (by decide)) fun bytes v number => Yields.pure ?_
    rw [List.append_nil]
    exact ⟨.i64 ((toInt64_ofInt number.lower number.upper).symm ▸ number), rfl⟩
  case h_24 =>
    refine Yields.bind Yields.u32le fun bytes n found => Yields.pure ?_
    obtain ⟨four, rfl⟩ := found
    rw [List.append_nil]
    exact ⟨.f32 four, rfl⟩
  case h_25 =>
    refine Yields.bind Yields.u64le fun bytes n found => Yields.pure ?_
    obtain ⟨eight, rfl⟩ := found
    rw [List.append_nil]
    exact ⟨.f64 eight, rfl⟩
  case h_26 => exact Yields.follows Yields.nullImmediate
  case h_27 => exact Yields.index (fun _ _ => .refFunc) fun _ => rfl
  case h_28 => exact Yields.follows Yields.miscImmediate
  case h_29 => exact Yields.follows Yields.vectorImmediate
  case h_30 =>
    refine Yields.ite (fun known => ?_) fun _ => ?_
    · refine Yields.bind Yields.memArg fun bytes arg found => Yields.pure ?_
      obtain ⟨spells, spellable⟩ := found
      rw [List.append_nil]
      exact ⟨.memory spells, by simp [Immediate.suits, known, spellable]⟩
    · refine Yields.ite (fun known => Yields.pure ?_) fun _ => Yields.throw _
      exact ⟨rfl, by simp [Immediate.suits, known]⟩
  all_goals exact Yields.pure ⟨rfl, rfl⟩

/-- An immediate that suits its opcode is read from each of its spellings. -/
theorem Reads.immediate (early : Bool) {op : UInt8} {bytes : List UInt8} {imm : Option Immediate}
    (follows : Immediate.Follows op bytes imm) :
    Reads (Decoder.immediate early op) bytes imm := by
  obtain ⟨fills, suits⟩ := follows
  cases imm with
  | none =>
      cases fills
      exact Reads.noImmediate early suits
  | some imm => exact Immediate.Spells.reads early fills suits

end Decoder

/-! ## Writing immediates -/

namespace Encode

theorem spells_memArg {arg : MemArg} (spellable : arg.spellable) : arg.Spells (memArg arg) := by
  obtain ⟨align, offset⟩ := arg
  simp only [MemArg.spellable, Bool.and_eq_true, decide_eq_true_eq] at spellable
  have back := toUInt64_toUInt32_of_lt spellable.2
  unfold memArg
  rw [← back, u64_toUInt64]
  exact .intro (unsigned_u32 align) spellable.1 (unsigned_u32 offset.toUInt32)

theorem length_memArg_le {bytes : List UInt8} {arg : MemArg} (spells : arg.Spells bytes) :
    (memArg arg).length ≤ bytes.length := by
  obtain ⟨first, -, second⟩ := spells
  have := length_u32_le first
  have := length_u32_le second
  simp only [memArg, u64_toUInt64, List.length_append]
  omega

/-- The writer marks a lane by the number of the instruction. -/
theorem takesLane_eq {sub : UInt32} {op : VectorOp} (known : VectorOp.ofCode sub = some op) :
    takesLane sub = (op.immediate == .lane) := by
  unfold VectorOp.ofCode at known
  split at known
  all_goals cases known
  all_goals
    next number =>
      have same : UInt32.ofNat sub.toNat = sub := UInt32.ofNat_toNat
      rw [number] at same
      subst same
      rfl

/-- What is written behind the number of a vector instruction of a given sort. -/
private def vectorFields (sort : VectorImmediateSort) (lane : UInt8) (arg : Option MemArg)
    (bytes : Option V128) : List UInt8 :=
  (arg.map memArg).getD [] ++ (bytes.map V128.toBytes).getD []
    ++ (if sort == .lane then [lane] else [])

private theorem spells_vectorFields {sort : VectorImmediateSort} {lanes : Nat} {lane : UInt8}
    {arg : Option MemArg} {bytes : Option V128} (allowed : sort.allows lanes lane arg bytes) :
    sort.Spells (vectorFields sort lane arg bytes) lane arg bytes := by
  cases sort
  all_goals simp only [VectorImmediateSort.allows, Bool.and_eq_true, beq_iff_eq,
    Option.isNone_iff_eq_none, Option.any_eq_true, Option.isSome_iff_exists] at allowed
  case memArg =>
    obtain ⟨⟨rfl, arg, rfl, spellable⟩, rfl⟩ := allowed
    simpa [vectorFields] using .memArg (spells_memArg spellable)
  case bytes =>
    obtain ⟨⟨rfl, rfl⟩, v, rfl⟩ := allowed
    have spells := VectorImmediateSort.Spells.bytes v.length_toBytes
    rw [V128.ofBytes_toBytes] at spells
    simpa [vectorFields] using spells
  case lane =>
    obtain ⟨⟨-, rfl⟩, rfl⟩ := allowed
    exact .lane
  case nothing =>
    obtain ⟨⟨rfl, rfl⟩, rfl⟩ := allowed
    exact .nothing

private theorem length_vectorFields_le {sort : VectorImmediateSort} {body : List UInt8}
    {lane : UInt8} {arg : Option MemArg} {bytes : Option V128}
    (spells : sort.Spells body lane arg bytes) :
    (vectorFields sort lane arg bytes).length ≤ body.length := by
  cases spells with
  | memArg spells => simpa [vectorFields] using length_memArg_le spells
  | bytes sixteen => simp [vectorFields, V128.length_toBytes, sixteen]
  | lane => simp [vectorFields]
  | nothing => simp [vectorFields]

/-- What is written for an immediate that suits its opcode is a spelling of it. -/
theorem spells_immediate {op : UInt8} {imm : Immediate} (suits : Immediate.suits op (some imm)) :
    imm.Spells (immediate imm) := by
  cases imm
  all_goals simp only [Immediate.suits, Bool.and_eq_true, Bool.false_eq_true] at suits
  case branch label => exact .branch (unsigned_u32 label)
  case branchTable labels fallback =>
    exact .branchTable (counted_vector (by simpa using suits.2) fun n _ => unsigned_u32 n)
      (unsigned_u32 fallback)
  case call func => exact .call (unsigned_u32 func)
  case callIndirect type table => exact .callIndirect (unsigned_u32 type) (unsigned_u32 table)
  case localIndex index => exact .localIndex (unsigned_u32 index)
  case globalIndex index => exact .globalIndex (unsigned_u32 index)
  case tableIndex index => exact .tableIndex (unsigned_u32 index)
  case memoryIndex index => exact .memoryIndex (unsigned_u32 index)
  case memory arg => exact .memory (spells_memArg suits.2)
  case i32 bits =>
    exact .i32 (signed_s64 (by decide) (by decide) (Int32.le_toInt _) (Int32.toInt_lt _))
  case i64 bits =>
    exact .i64 (signed_s64 (by decide) (by decide) (Int64.le_toInt _) (Int64.toInt_lt _))
  case f32 bits =>
    have four : (u32le bits).length = 4 := length_littleEndian 4 bits.toNat
    have spells := Immediate.Spells.f32 four
    rwa [littleEndian_u32le] at spells
  case f64 bits =>
    have eight : (u64le bits).length = 8 := length_littleEndian 8 bits.toNat
    have spells := Immediate.Spells.f64 eight
    rwa [littleEndian_u64le] at spells
  case refNull type => exact .refNull
  case refFunc func => exact .refFunc (unsigned_u32 func)
  case select types =>
    obtain ⟨type, rfl⟩ := List.length_eq_one_iff.mp (by simpa using suits.1.2)
    exact .select (unsigned_u32 1)
  case misc sub operands =>
    exact .misc (unsigned_u32 sub) (Parts.flatMap fun n _ => unsigned_u32 n)
  case simd sub lane arg bytes =>
    obtain ⟨vector, known, takes⟩ := (Option.any_eq_true _ _).mp suits.2
    have spells := Immediate.Spells.simd (unsigned_u32 sub) known (spells_vectorFields takes)
    simpa [immediate, vectorFields, takesLane_eq known] using spells

/-- Nothing shorter than what is written spells an immediate. -/
theorem length_immediate_le {bytes : List UInt8} {imm : Immediate} (spells : imm.Spells bytes) :
    (immediate imm).length ≤ bytes.length := by
  cases spells with
  | branch number | call number | localIndex number | globalIndex number | tableIndex number
  | memoryIndex number | refFunc number => exact length_u32_le number
  | branchTable counted last =>
      have front : (vector u32 _).length ≤ _ :=
        counted.length_vector_le fun _ _ number => length_u32_le number
      have back := length_u32_le last
      simp only [immediate, List.length_append]
      omega
  | callIndirect first second =>
      have front := length_u32_le first
      have back := length_u32_le second
      simp only [immediate, List.length_append]
      omega
  | memory spells => exact length_memArg_le spells
  | i32 number => exact length_s64_le (by decide) number
  | i64 number => exact length_s64_le (by decide) number
  | f32 four => rw [four]; exact Nat.le_of_eq (length_littleEndian 4 _)
  | f64 eight => rw [eight]; exact Nat.le_of_eq (length_littleEndian 8 _)
  | refNull => exact Nat.le_refl _
  | select number =>
      have front := length_u32_le number
      simp only [immediate, vector, Encode.length, List.length_append]
      exact Nat.add_le_add_right front 1
  | misc number parts =>
      have front := length_u32_le number
      have back : (List.flatMap u32 _).length ≤ _ :=
        parts.length_flatMap_le fun _ _ number => length_u32_le number
      simp only [immediate, List.length_append]
      omega
  | simd number known spells =>
      have front := length_u32_le number
      have back := length_vectorFields_le spells
      simp only [immediate, vectorFields, takesLane_eq known, List.length_append] at back ⊢
      omega

/-- What is written for an immediate, or for none, follows its opcode. -/
theorem follows_immediate {op : UInt8} {imm : Option Immediate} (suits : Immediate.suits op imm) :
    Immediate.Follows op ((imm.map immediate).getD []) imm := by
  refine ⟨?_, suits⟩
  cases imm with
  | none => rfl
  | some imm => exact spells_immediate suits

theorem length_immediate_le_of_fills {bytes : List UInt8} {imm : Option Immediate}
    (fills : Immediate.Fills bytes imm) : ((imm.map immediate).getD []).length ≤ bytes.length := by
  cases imm with
  | none => exact Nat.zero_le _
  | some imm => exact length_immediate_le fills

end Encode

end WasmMachine
