/-
# Typed code has a spelling

A tree built by hand can hold numbers for which the binary format has no room.
When every instruction carries all of the immediate that its opcode asks for, the
rules for typed code keep most of them out: alignments, lanes, the types of nulls
and of selects, block types.  One number is left that no rule looks at, the offset
of a memory access.  The checks of constant expressions are fewer and let a null of
any type pass.

The number of labels of a branch table is not limited either, but then the
expression is too long to be written.
-/

import WasmMachine.Proofs.Instruction.Grammar
import WasmMachine.Proofs.Safety.Constant
import WasmMachine.Proofs.Typing.Signature

namespace WasmMachine

open Typing

/-! ## Complete trees -/

/-- Whether fields are those of a sort of vector instruction, whichever lane is named. -/
def VectorImmediateSort.complete (lane : UInt8) (arg : Option MemArg) (bytes : Option V128) :
    VectorImmediateSort → Bool
  | .memArg => lane == 0 && arg.isSome && bytes.isNone
  | .bytes => lane == 0 && arg.isNone && bytes.isSome
  | .lane => arg.isNone && bytes.isNone
  | .nothing => lane == 0 && arg.isNone && bytes.isNone

namespace Immediate

/-- Whether an immediate, or its absence, is of the sort that an opcode asks for and has
all its fields. Only the sorts of which some numbers or types have no spelling differ
from `suits`. -/
def complete (op : UInt8) : Option Immediate → Bool
  | some (.branchTable _ _) => op == Opcode.brTable
  | some (.memory _) => (MemoryAccess.ofOpcode op).isSome
  | some (.refNull _) => op == Opcode.refNull
  | some (.select types) => op == Opcode.selectTyped && types.all ValType.isValid
  | some (.simd sub lane arg bytes) =>
      op == Opcode.vector &&
        (VectorOp.ofCode sub).any fun vector => vector.immediate.complete lane arg bytes
  | imm => suits op imm

/-- The offset of a memory access, where there is one, has 32 bits. -/
def shortOffset : Option Immediate → Bool
  | some (.memory arg) => decide (arg.offset.toNat < 2 ^ 32)
  | some (.simd _ _ (some arg) _) => decide (arg.offset.toNat < 2 ^ 32)
  | _ => true

end Immediate

namespace Instruction

mutual

/-- Whether an instruction and those nested in it carry what their opcodes ask for, and
nothing else. -/
def complete : Instruction → Bool
  | .node op imm body orElse =>
      if Opcode.isConstruct op then
        (match imm with
          | some (.block _) => true
          | _ => false)
          && allComplete body && allComplete orElse && (op == Opcode.ifElse || orElse.isEmpty)
      else Immediate.complete op imm && body.isEmpty && orElse.isEmpty

/-- Whether all trees of a sequence are complete. -/
def allComplete : List Instruction → Bool
  | [] => true
  | i :: rest => complete i && allComplete rest

end

mutual

/-- Whether the offsets of all memory accesses in a tree have 32 bits. -/
def shortOffsets : Instruction → Bool
  | .node _ imm body orElse =>
      Immediate.shortOffset imm && allShortOffsets body && allShortOffsets orElse

/-- The same for the trees of a sequence. -/
def allShortOffsets : List Instruction → Bool
  | [] => true
  | i :: rest => shortOffsets i && allShortOffsets rest

end

theorem complete_construct {op : UInt8} {imm : Option Immediate} {body orElse : List Instruction}
    (construct : Opcode.isConstruct op) :
    complete (.node op imm body orElse) ↔
      (∃ type, imm = some (.block type)) ∧ allComplete body ∧ allComplete orElse ∧
        (op = Opcode.ifElse ∨ orElse = []) := by
  unfold complete
  rw [if_pos construct]
  split
  · simp [and_assoc]
  · next other =>
      simp only [Bool.false_and, Bool.false_eq_true, false_iff]
      rintro ⟨⟨type, equal⟩, -⟩
      exact other type equal

theorem complete_plain {op : UInt8} {imm : Option Immediate} {body orElse : List Instruction}
    (plain : ¬ Opcode.isConstruct op) :
    complete (.node op imm body orElse) ↔
      Immediate.complete op imm ∧ body = [] ∧ orElse = [] := by
  unfold complete
  rw [if_neg plain]
  simp [and_assoc]

end Instruction

/-! ## Offsets of spelled trees -/

theorem Immediate.shortOffset_of_suits {op : UInt8} {imm : Option Immediate}
    (suits : suits op imm) : shortOffset imm := by
  unfold shortOffset
  split
  · next arg =>
      simp only [Immediate.suits, MemArg.spellable, Bool.and_eq_true] at suits
      exact suits.2.2
  · next sub lane arg bytes =>
      simp only [Immediate.suits, Bool.and_eq_true, Option.any_eq_true, VectorOp.takes] at suits
      obtain ⟨-, vector, -, takes⟩ := suits
      cases sort : vector.immediate
      all_goals simp only [sort, VectorImmediateSort.allows, MemArg.spellable, Option.any_some,
        Option.isNone_some, Bool.and_eq_true, Bool.and_false, Bool.false_and,
        Bool.false_eq_true] at takes
      exact takes.1.2.2
  · rfl

mutual

/-- No tree that could have come from a binary has a longer offset. -/
theorem Instruction.shortOffsets_of_wellFormed : ∀ (i : Instruction), i.wellFormed → i.shortOffsets
  | .node op imm body orElse, wellFormed => by
      rw [shortOffsets, Bool.and_eq_true, Bool.and_eq_true]
      by_cases construct : Opcode.isConstruct op
      · obtain ⟨⟨type, rfl, -⟩, inner, other, -⟩ := (wellFormed_construct construct).mp wellFormed
        exact ⟨⟨rfl, allShortOffsets_of_allWellFormed body inner⟩,
          allShortOffsets_of_allWellFormed orElse other⟩
      · obtain ⟨suits, rfl, rfl⟩ := (wellFormed_plain construct).mp wellFormed
        exact ⟨⟨Immediate.shortOffset_of_suits suits, rfl⟩, rfl⟩

theorem Instruction.allShortOffsets_of_allWellFormed : ∀ (is : List Instruction),
    allWellFormed is → allShortOffsets is
  | [], _ => rfl
  | i :: rest, wellFormed => by
      rw [allWellFormed, Bool.and_eq_true] at wellFormed
      rw [allShortOffsets, Bool.and_eq_true]
      exact ⟨shortOffsets_of_wellFormed i wellFormed.1,
        allShortOffsets_of_allWellFormed rest wellFormed.2⟩

end

/-! ## Typed instructions -/

namespace Typing

variable {ctx : Context} {labels : List (List ValType)} {op : UInt8} {imm : Option Immediate}
  {body orElse : List Instruction} {before after : List ValType}

/-- Every instruction but the special ones has a signature. -/
theorem Typed.plainTyped {i : Instruction} (typed : Typed ctx labels i before after)
    (ordinary : i.opcode ∉ Context.special) : ∃ type, PlainTyped ctx i type := by
  cases typed with
  | plain typed _ => exact ⟨_, typed⟩
  | drop is | select is _ _ _ _ | refIsNull is _ | unreachable is | br is _ _ | brIf is _ _ _
  | brTable is _ _ _ _ | ret is _ | block is _ _ _ | loop is _ _ _ | ifElse is _ _ _ _ _ =>
      rw [is] at ordinary
      exact absurd (by decide) ordinary

/-- A promise of alignment that is kept by at most 16 bytes is a small number. -/
theorem Aligned.align_lt {align : UInt32} {width : Nat} (aligned : Aligned align width)
    (narrow : width ≤ 16) : align < 64 := by
  rw [UInt32.lt_iff_toNat_lt]
  by_contra large
  have huge : 2 ^ 64 ≤ 2 ^ align.toNat := Nat.pow_le_pow_right (by decide) (Nat.not_lt.mp large)
  exact absurd (Nat.le_trans huge (Nat.le_trans aligned narrow)) (by decide)

theorem spellable_of_access {access : MemoryAccess} {arg : MemArg} {type : FuncType}
    (known : MemoryAccess.ofOpcode op = some access)
    (typed : PlainTyped ctx (.node op (some (.memory arg)) body orElse) type)
    (short : arg.offset.toNat < 2 ^ 32) : arg.spellable := by
  have computed := Context.signature_eq_ok_iff.mpr typed
  have numeric : Numeric.Operation.ofOpcode op = none := MemoryAccess.numeric_eq_none known
  unfold Context.signature at computed
  simp only [Instruction.opcode, numeric, known] at computed
  have narrow := MemoryAccess.width_le known
  obtain ⟨-, aligned, -⟩ := (Context.accessSignature_eq_ok_iff narrow).mp computed
  have small : arg.align < 64 := aligned.align_lt narrow
  simp [MemArg.spellable, small, short]

theorem isRef_of_typed {type : ValType} {signature : FuncType}
    (typed : PlainTyped ctx (.node Opcode.refNull (some (.refNull type)) body orElse) signature) :
    type.isRef := by
  have computed := Context.signature_eq_ok_iff.mpr typed
  have numeric : Numeric.Operation.ofOpcode Opcode.refNull = none :=
    Numeric.Operation.eq_none_of_le (by decide)
  unfold Context.signature at computed
  simp only [Instruction.opcode, numeric] at computed
  obtain ⟨reference, -⟩ := refuse_eq_ok_iff.mp computed
  simpa [Instruction.refNullType, Instruction.immediate] using reference

theorem length_of_selectTyped {types : List ValType} {signature : FuncType}
    (typed : PlainTyped ctx (.node Opcode.selectTyped (some (.select types)) body orElse)
      signature) : types.length = 1 := by
  have computed := Context.signature_eq_ok_iff.mpr typed
  unfold Context.signature at computed
  simp only [Instruction.opcode, Instruction.selectTypes, Instruction.immediate] at computed
  rcases types with _ | ⟨type, _ | ⟨other, rest⟩⟩
  · cases computed
  · rfl
  · cases computed

/-- The signature of a vector instruction comes from the table of vector instructions. -/
theorem PlainTyped.vectorTyped {i : Instruction} {vector : VectorOp} {type : FuncType}
    (typed : PlainTyped ctx i type) (is : i.opcode = Opcode.vector)
    (known : VectorOp.ofCode i.vector.sub = some vector) :
    VectorTyped ctx i.vector vector type := by
  have numeric : Numeric.Operation.ofOpcode Opcode.vector = none :=
    Numeric.Operation.eq_none_of_le (by decide)
  have access : MemoryAccess.ofOpcode Opcode.vector = none := rfl
  cases typed with
  | numeric found =>
      rw [is, numeric] at found
      cases found
  | load found _ _ _ | store found _ _ _ =>
      rw [is, access] at found
      cases found
  | vector _ found typed =>
      cases known.symm.trans found
      exact typed
  | i32Const other | i64Const other | f32Const other | f64Const other | nop other | call other _
  | callIndirect other _ _ _ | selectTyped other _ | localGet other _ | localSet other _
  | localTee other _ | globalGet other _ | globalSet other _ _ | tableGet other _
  | tableSet other _ | memorySize other _ | memoryGrow other _ | refNull other _
  | refFunc other _ _ | misc other _ _ =>
      rw [is] at other
      exact absurd other (by decide)

/-- What follows the number of a vector instruction says whether it moves bytes. -/
theorem access_of_immediate {vector : VectorOp} (sort : vector.immediate = .memArg) :
    vector.access?.isSome := by
  cases vector <;> first
    | rfl
    | cases sort

theorem laneShape_of_immediate {vector : VectorOp} (sort : vector.immediate = .lane) :
    vector.access? = none ∧ vector.laneShape?.isSome := by
  cases vector <;> first
    | exact ⟨rfl, rfl⟩
    | cases sort

/-- The alignment of a vector access is in order, whichever way the bytes go. -/
theorem aligned_of_vectorTyped {imm : Instruction.VectorImmediate} {vector : VectorOp}
    {type : FuncType} (moves : vector.access?.isSome) (typed : VectorTyped ctx imm vector type) :
    ∃ width ≤ 16, Aligned ((imm.arg.map (·.align)).getD 0) width := by
  cases typed with
  | load access _ aligned => exact ⟨_, VectorOp.width_le access, aligned⟩
  | store access _ aligned => exact ⟨_, VectorOp.width_le access, aligned⟩
  | lanes none _ _ =>
      rw [none] at moves
      cases moves

theorem lane_of_vectorTyped {imm : Instruction.VectorImmediate} {vector : VectorOp}
    {type : FuncType} (sort : vector.immediate = .lane)
    (typed : VectorTyped ctx imm vector type) : imm.lane.toNat < vector.laneCount := by
  obtain ⟨none, some⟩ := laneShape_of_immediate sort
  obtain ⟨shape, named⟩ := Option.isSome_iff_exists.mp some
  cases typed with
  | load access _ _ | store access _ _ =>
      rw [none] at access
      cases access
  | lanes _ inside _ =>
      rw [VectorOp.laneCount, named]
      exact inside shape named

theorem takes_of_vectorTyped {sub : UInt32} {vector : VectorOp} {lane : UInt8}
    {arg : Option MemArg} {bytes : Option V128} {type : FuncType}
    (complete : vector.immediate.complete lane arg bytes)
    (short : Immediate.shortOffset (some (.simd sub lane arg bytes)))
    (typed : VectorTyped ctx ⟨sub, lane, arg, bytes⟩ vector type) :
    vector.takes lane arg bytes := by
  unfold VectorOp.takes
  cases sort : vector.immediate
  all_goals rw [sort] at complete
  case memArg =>
    obtain ⟨width, narrow, aligned⟩ := aligned_of_vectorTyped (access_of_immediate sort) typed
    simp only [VectorImmediateSort.complete, Bool.and_eq_true] at complete
    obtain ⟨⟨zero, some⟩, none⟩ := complete
    obtain ⟨arg, rfl⟩ := Option.isSome_iff_exists.mp some
    have small : arg.align < 64 := aligned.align_lt narrow
    have offset : arg.offset.toNat < 2 ^ 32 := by simpa [Immediate.shortOffset] using short
    simp [VectorImmediateSort.allows, MemArg.spellable, zero, none, small, offset]
  case lane =>
    have inside := lane_of_vectorTyped sort typed
    simp only [VectorImmediateSort.complete, Bool.and_eq_true] at complete
    simpa [VectorImmediateSort.allows, inside] using complete
  all_goals exact complete

theorem access_of_special {op : UInt8} (special : op ∈ Context.special) :
    MemoryAccess.ofOpcode op = none := by
  have none : Context.special.all fun op => (MemoryAccess.ofOpcode op).isNone := by decide
  simpa using List.all_eq_true.mp none op special

/-- In typed code an immediate that is complete, has a short offset and takes up few
bytes is one that its opcode admits. -/
theorem suits_of_typed
    (typed : Typed ctx labels (.node op imm body orElse) before after)
    (complete : Immediate.complete op imm) (short : Immediate.shortOffset imm)
    (fits : ((imm.map Encode.immediate).getD []).length < 2 ^ 32) : Immediate.suits op imm := by
  have signature (ordinary : op ∉ Context.special) : ∃ type, PlainTyped ctx _ type :=
    typed.plainTyped ordinary
  cases imm with
  | none => exact complete
  | some imm =>
      cases imm with
      | branchTable labels fallback =>
          have some (n : UInt32) : Encode.u32 n ≠ [] :=
            List.length_pos_iff.mp (Encode.unsigned_u32 n).groups.length_pos
          have enough := Decoder.count_le_vector some labels
          simp only [Option.map_some, Option.getD_some, Encode.immediate,
            List.length_append] at fits
          have few : labels.length < 2 ^ 32 := by omega
          simp only [Immediate.complete] at complete
          simp [Immediate.suits, complete, few]
      | memory arg =>
          obtain ⟨access, known⟩ := Option.isSome_iff_exists.mp complete
          obtain ⟨type, typed⟩ := signature fun special => by
            rw [access_of_special special] at known
            cases known
          have offset : arg.offset.toNat < 2 ^ 32 := by simpa [Immediate.shortOffset] using short
          simp [Immediate.suits, known, spellable_of_access known typed offset]
      | refNull type =>
          obtain rfl : op = Opcode.refNull := by simpa [Immediate.complete] using complete
          obtain ⟨signature, typed⟩ := signature (by decide)
          simp [Immediate.suits, isRef_of_typed typed]
      | select types =>
          simp only [Immediate.complete, Bool.and_eq_true, beq_iff_eq] at complete
          obtain ⟨rfl, valid⟩ := complete
          obtain ⟨signature, typed⟩ := signature (by decide)
          simp [Immediate.suits, length_of_selectTyped typed, valid]
      | simd sub lane arg bytes =>
          simp only [Immediate.complete, Bool.and_eq_true, beq_iff_eq,
            Option.any_eq_true] at complete
          obtain ⟨rfl, vector, known, complete⟩ := complete
          obtain ⟨signature, typed⟩ := signature (by decide)
          have takes := takes_of_vectorTyped complete short (typed.vectorTyped rfl known)
          simp [Immediate.suits, known, takes]
      | _ => exact complete

end Typing

/-! ## Typed code -/

namespace Encode

/-- An instruction takes up its immediate. -/
theorem length_immediate_le_instruction (op : UInt8) (imm : Option Immediate)
    (body orElse : List Instruction) :
    ((imm.map immediate).getD []).length ≤ (instruction (.node op imm body orElse)).length := by
  cases imm with
  | none => exact Nat.zero_le _
  | some imm =>
      cases imm with
      | block type =>
          simp only [instruction, Option.map_some, Option.getD_some, List.length_cons,
            List.length_append]
          omega
      | _ => simp [instruction]

/-- A construct takes up the instructions nested in it. -/
theorem length_nested_le {op : UInt8} {orElse : List Instruction} (type : BlockType)
    (body : List Instruction) (arm : op = Opcode.ifElse ∨ orElse = []) :
    (instructions body).length ≤
        (instruction (.node op (some (.block type)) body orElse)).length ∧
      (instructions orElse).length ≤
        (instruction (.node op (some (.block type)) body orElse)).length := by
  by_cases empty : orElse = []
  · subst empty
    rw [instruction_construct, instructions]
    simp only [List.length_cons, List.length_append, List.length_nil]
    omega
  · obtain rfl := arm.resolve_right empty
    rw [instruction_choice type body empty]
    simp only [List.length_cons, List.length_append]
    omega

end Encode

namespace Typing

variable {ctx : Context}

/-- Block types that stand for a signature have a spelling. -/
theorem spellable_of_signature {types : List FuncType} {b : BlockType} {type : FuncType}
    (found : BlockType.signature? types b = some type) : b.spellable := by
  unfold BlockType.signature? at found
  unfold BlockType.spellable
  split at found
  · next shorthand => simp [shorthand]
  · split at found
    · cases found
    · next nonneg =>
        rw [Int32.not_lt, Int32.le_iff_toInt_le] at nonneg
        have nonneg : 0 ≤ b.toInt := nonneg
        simp [nonneg]

theorem special_of_construct {op : UInt8} (construct : Opcode.isConstruct op) :
    op ∈ Context.special := by
  simp only [Opcode.isConstruct, Bool.or_eq_true, beq_iff_eq] at construct
  rcases construct with (rfl | rfl) | rfl
  all_goals decide

/-- What is nested in a typed construct is typed, and the block type has a meaning. The
second arm of a choice is typed as well; other constructs have none. -/
theorem Typed.construct {labels : List (List ValType)} {op : UInt8} {b : BlockType}
    {body orElse : List Instruction} {before after : List ValType}
    (construct : Opcode.isConstruct op)
    (typed : Typed ctx labels (.node op (some (.block b)) body orElse) before after) :
    b.spellable ∧ (∃ labels type, BodyTyped ctx labels type body) ∧
      (op = Opcode.ifElse → ∃ labels type, BodyTyped ctx labels type orElse) := by
  cases typed with
  | block is known _ body =>
      refine ⟨spellable_of_signature known, ⟨_, _, body⟩, fun choice => ?_⟩
      exact absurd (is.symm.trans choice) (by decide)
  | loop is known _ body =>
      refine ⟨spellable_of_signature known, ⟨_, _, body⟩, fun choice => ?_⟩
      exact absurd (is.symm.trans choice) (by decide)
  | ifElse _ known _ _ body other =>
      exact ⟨spellable_of_signature known, ⟨_, _, body⟩, fun _ => ⟨_, _, other⟩⟩
  | plain typed _ =>
      exact absurd (special_of_construct construct) (Context.not_special_of_plainTyped typed)
  | drop is | select is _ _ _ _ | refIsNull is _ | unreachable is | br is _ _ | brIf is _ _ _
  | brTable is _ _ _ _ | ret is _ =>
      obtain rfl : op = _ := is
      exact absurd construct (by decide)

mutual

/-- Complete instructions of typed code could have come from a binary, if their offsets
are short and the bytes they take up can be counted. -/
theorem wellFormed_of_typed : ∀ (i : Instruction) {labels : List (List ValType)}
    {before after : List ValType}, Typed ctx labels i before after → i.complete →
      i.shortOffsets → (Encode.instruction i).length < 2 ^ 32 → i.wellFormed
  | .node op imm body orElse, labels, before, after, typed, complete, short, fits => by
      rw [Instruction.shortOffsets, Bool.and_eq_true, Bool.and_eq_true] at short
      obtain ⟨⟨short, inner⟩, other⟩ := short
      by_cases construct : Opcode.isConstruct op
      · obtain ⟨⟨b, rfl⟩, complete, complete', arm⟩ :=
          (Instruction.complete_construct construct).mp complete
        obtain ⟨known, ⟨_, _, typed, _⟩, typed'⟩ := typed.construct construct
        obtain ⟨size, size'⟩ := Encode.length_nested_le b body arm
        refine (Instruction.wellFormed_construct construct).mpr
          ⟨⟨b, rfl, known⟩, allWellFormed_of_typed body typed complete inner (by omega), ?_, arm⟩
        rcases arm with choice | rfl
        · obtain ⟨_, _, typed', _⟩ := typed' choice
          exact allWellFormed_of_typed orElse typed' complete' other (by omega)
        · rfl
      · obtain ⟨carries, rfl, rfl⟩ := (Instruction.complete_plain construct).mp complete
        have size := Encode.length_immediate_le_instruction op imm [] []
        exact (Instruction.wellFormed_plain construct).mpr
          ⟨suits_of_typed typed carries short (by omega), rfl, rfl⟩

/-- The same for sequences. -/
theorem allWellFormed_of_typed : ∀ (is : List Instruction) {labels : List (List ValType)}
    {before after : List ValType}, SequenceTyped ctx labels is before after →
      Instruction.allComplete is → Instruction.allShortOffsets is →
      (Encode.instructions is).length < 2 ^ 32 → Instruction.allWellFormed is
  | [], _, _, _, _, _, _, _ => rfl
  | i :: rest, labels, before, after, typed, complete, short, fits => by
      rw [Instruction.allComplete, Bool.and_eq_true] at complete
      rw [Instruction.allShortOffsets, Bool.and_eq_true] at short
      rw [Encode.instructions, List.length_append] at fits
      rw [Instruction.allWellFormed, Bool.and_eq_true]
      cases typed with
      | cons first others =>
          exact ⟨wellFormed_of_typed i first complete.1 short.1 (by omega),
            allWellFormed_of_typed rest others complete.2 short.2 (by omega)⟩

end

/-! ## Constant expressions -/

/-- The instructions that constant expressions are made of. -/
def constants : List UInt8 :=
  [Opcode.i32Const, Opcode.i64Const, Opcode.f32Const, Opcode.f64Const, Opcode.refNull,
    Opcode.refFunc, Opcode.globalGet, Opcode.vector]

variable {readable : Nat} {i : Instruction} {type : ValType}

theorem opcode_of_constantType (typed : constantType ctx readable i = .ok type) :
    i.opcode ∈ constants := by
  unfold constantType at typed
  split at typed
  case h_9 => cases typed
  all_goals
    next is =>
      rw [is]
      decide

theorem const_of_constantType (typed : constantType ctx readable i = .ok type)
    (is : i.opcode = Opcode.vector) : VectorOp.ofCode i.vector.sub = some .const := by
  unfold constantType at typed
  split at typed
  case h_8 =>
    split at typed
    · assumption
    · cases typed
  case h_9 => cases typed
  all_goals
    next other => exact absurd (is.symm.trans other) (by decide)

/-- Constants are neither constructs nor do they touch memory. -/
theorem plain_of_constants {op : UInt8} (constant : op ∈ constants) :
    ¬ Opcode.isConstruct op ∧ MemoryAccess.ofOpcode op = none := by
  have all : constants.all fun op =>
      !Opcode.isConstruct op && (MemoryAccess.ofOpcode op).isNone := by decide
  simpa using List.all_eq_true.mp all op constant

/-- A complete constant could have come from a binary, if it is not a null of a type that
is no reference type. -/
theorem wellFormed_of_constantType (typed : constantType ctx readable i = .ok type)
    (complete : i.complete) (reference : i.opcode = Opcode.refNull → i.refNullType.isRef) :
    i.wellFormed := by
  have vector := const_of_constantType typed
  obtain ⟨op, imm, body, orElse⟩ := i
  have constant : op ∈ constants := opcode_of_constantType typed
  obtain ⟨plain, none⟩ := plain_of_constants constant
  obtain ⟨carries, rfl, rfl⟩ := (Instruction.complete_plain plain).mp complete
  refine (Instruction.wellFormed_plain plain).mpr ⟨?_, rfl, rfl⟩
  cases imm with
  | none => exact carries
  | some imm =>
      cases imm with
      | branchTable labels fallback =>
          obtain rfl : op = Opcode.brTable := by simpa [Immediate.complete] using carries
          exact absurd constant (by decide)
      | memory arg =>
          simp only [Immediate.complete] at carries
          rw [none] at carries
          cases carries
      | refNull type =>
          obtain rfl : op = Opcode.refNull := by simpa [Immediate.complete] using carries
          have reference : type.isRef := reference rfl
          simp [Immediate.suits, reference]
      | select types =>
          simp only [Immediate.complete, Bool.and_eq_true, beq_iff_eq] at carries
          obtain ⟨rfl, -⟩ := carries
          exact absurd constant (by decide)
      | simd sub lane arg bytes =>
          simp only [Immediate.complete, Bool.and_eq_true, beq_iff_eq,
            Option.any_eq_true] at carries
          obtain ⟨rfl, op, known, fields⟩ := carries
          cases known.symm.trans (vector rfl)
          have takes : VectorOp.const.takes lane arg bytes := fields
          simp [Immediate.suits, known, takes]
      | _ => exact carries

/-- A complete constant expression could have come from a binary, if its nulls are of
reference types. -/
theorem wellFormed_of_checkConstant {expr : List Instruction} {want : ValType}
    (checked : checkConstant ctx expr want readable = .ok ())
    (complete : Instruction.allComplete expr)
    (references : ∀ i ∈ expr, i.opcode = Opcode.refNull → i.refNullType.isRef) :
    Instruction.allWellFormed expr ∧ Instruction.depthOf expr = 0 := by
  obtain ⟨i, rfl, typed⟩ := Store.singleton_of_checkConstant checked
  simp only [Instruction.allComplete, Bool.and_true] at complete
  have wellFormed := wellFormed_of_constantType typed complete (references i List.mem_cons_self)
  refine ⟨by simp [Instruction.allWellFormed, wellFormed], ?_⟩
  obtain ⟨op, imm, body, orElse⟩ := i
  have plain : ¬ Opcode.isConstruct op := (plain_of_constants (opcode_of_constantType typed)).1
  simp [Instruction.depthOf, Instruction.depth, plain]

end Typing

end WasmMachine
