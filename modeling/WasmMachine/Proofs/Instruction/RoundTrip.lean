/-
# Expressions come back from their bytes

Writing well-formed trees and reading the bytes gives the same trees.  Both
halves are statements about the grammar: what is written is a spelling, and every
spelling is read as its trees.  Nothing but the spellings is read, so the grammar
says exactly which byte strings are expressions.
-/

import WasmMachine.Proofs.Instruction.Grammar

namespace WasmMachine

open Decoder

/-- A whole expression leaves no byte behind it. -/
theorem Decoder.wholeExpr_eq_ok_iff {early : Bool} {r r' : Reader} {is : List Instruction} :
    wholeExpr early r = .ok is r' ↔ expr early r = .ok is r' ∧ r'.rest = [] := by
  unfold wholeExpr
  simp only [bind_eq_ok_iff, throw_bind]
  constructor
  · rintro ⟨is', middle, read, n, middle', counted, ended⟩
    cases counted
    split at ended
    · cases ended
    · next none =>
      cases ended
      exact ⟨read, by simpa [Reader.left] using none⟩
  · rintro ⟨read, nothing⟩
    exact ⟨is, r', read, _, _, rfl, by rw [Reader.left, nothing]; rfl⟩

/-- Every spelling of trees that are not nested too deeply, with the byte that
closes it, decodes to them. -/
theorem decodeExpr_of_spelled {bytes : List UInt8} {is : List Instruction}
    (spelled : Instruction.Spelled bytes is) (shallow : Instruction.depthOf is ≤ maxNesting) :
    decodeExpr (bytes ++ [Opcode.close]) = .ok is := by
  have reads := Reads.expr true spelled shallow 0 []
  rw [List.append_nil] at reads
  have whole : wholeExpr true (Reader.ofBytes (bytes ++ [Opcode.close])) =
      .ok is ⟨0 + (bytes ++ [Opcode.close]).length, []⟩ := wholeExpr_eq_ok_iff.mpr ⟨reads, rfl⟩
  simp only [decodeExpr, whole]

/-- What is decoded is a spelling of the trees, closed by the last byte there is. -/
theorem spelled_of_decodeExpr {bytes : List UInt8} {is : List Instruction}
    (decoded : decodeExpr bytes = .ok is) :
    ∃ inner, bytes = inner ++ [Opcode.close] ∧ Instruction.Spelled inner is ∧
      Instruction.depthOf is ≤ maxNesting := by
  unfold decodeExpr at decoded
  split at decoded
  case h_2 => cases decoded
  next is' r whole =>
    cases decoded
    obtain ⟨read, nothing⟩ := wholeExpr_eq_ok_iff.mp whole
    obtain ⟨taken, split, -, inner, rfl, spelled, shallow⟩ := Yields.expr true _ _ _ read
    rw [nothing, List.append_nil] at split
    exact ⟨inner, split, spelled, shallow⟩

/-- An expression is decoded from exactly the spellings of its trees, closed and
nested no deeper than the limit; every other byte string is refused.  The numbers
of a spelling are the byte strings that the readers of numbers take for them. -/
theorem decodeExpr_eq_ok_iff_spelled :
    (∀ (bytes : List UInt8) (is : List Instruction),
      decodeExpr bytes = .ok is ↔
        ∃ inner, bytes = inner ++ [Opcode.close] ∧ Instruction.Spelled inner is ∧
          Instruction.depthOf is ≤ maxNesting) ∧
    (∀ bytes : List UInt8,
      (¬ ∃ is inner, bytes = inner ++ [Opcode.close] ∧ Instruction.Spelled inner is ∧
        Instruction.depthOf is ≤ maxNesting) → ∃ cause, decodeExpr bytes = .error cause) ∧
    (∀ (bytes : List UInt8) (n : UInt32),
      Leb128.Unsigned bytes n ↔ Reads Decoder.u32 bytes n) ∧
    (∀ width ∈ [32, 33, 64], ∀ (bytes : List UInt8) (v : Int),
      Leb128.Signed width bytes v ↔ Reads (Decoder.signed width) bytes v) := by
  have accepts : ∀ (bytes : List UInt8) (is : List Instruction), decodeExpr bytes = .ok is ↔
      ∃ inner, bytes = inner ++ [Opcode.close] ∧ Instruction.Spelled inner is ∧
        Instruction.depthOf is ≤ maxNesting := by
    refine fun bytes is => ⟨spelled_of_decodeExpr, ?_⟩
    rintro ⟨inner, rfl, spelled, shallow⟩
    exact decodeExpr_of_spelled spelled shallow
  refine ⟨accepts, fun bytes unspelled => ?_, fun bytes n => ?_, fun width known bytes v => ?_⟩
  · cases decoded : decodeExpr bytes with
    | error cause => exact ⟨cause, rfl⟩
    | ok is => exact absurd ⟨is, (accepts bytes is).mp decoded⟩ unspelled
  · exact ⟨Reads.u32, fun reads => Yields.u32.of_reads reads⟩
  · have most : width ≤ 64 := by
      simp only [List.mem_cons, List.not_mem_nil, or_false] at known
      omega
    exact ⟨Reads.signed most, fun reads => (Yields.signed most).of_reads reads⟩

/-- Encoding a list of well-formed instruction trees and decoding the bytes gives
the list back. -/
theorem decodeExpr_encode_expr {is : List Instruction}
    (wellFormed : Instruction.allWellFormed is)
    (shallow : Instruction.depthOf is ≤ maxNesting) : decodeExpr (Encode.expr is) = .ok is :=
  decodeExpr_of_spelled (Encode.spelled_instructions is wellFormed) shallow

/-- A choice with both arms around a branch table, a negative constant, a memory
access, a miscellaneous instruction and a vector constant. -/
def mixedTrees : List Instruction :=
  [.plain Opcode.i32Const (some (.i32 0xffffffff)),
    .node Opcode.ifElse (some (.block BlockType.void))
      [.node Opcode.block (some (.block 3)) [.plain Opcode.brTable (some (.branchTable [1, 0] 200))]
        []]
      [.plain 0x28 (some (.memory ⟨2, 0xffffffff⟩)), .plain 0x6a none,
        .plain Opcode.misc (some (.misc 0x0a [0, 0])),
        .plain Opcode.vector (some (.simd 0x0c 0 none (some 5)))]]

theorem decodeExpr_encode_mixedTrees :
    Instruction.allWellFormed mixedTrees ∧ Instruction.depthOf mixedTrees ≤ maxNesting ∧
      decodeExpr (Encode.expr mixedTrees) = .ok mixedTrees := by
  have wellFormed : Instruction.allWellFormed mixedTrees := by decide +kernel
  have shallow : Instruction.depthOf mixedTrees ≤ maxNesting := by decide +kernel
  exact ⟨wellFormed, shallow, decodeExpr_encode_expr wellFormed shallow⟩

end WasmMachine
