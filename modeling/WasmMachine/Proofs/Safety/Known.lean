/-
# Types that mean something

The byte for no type is not among the types that a binary can hold.  In a context
without it, everything that an instruction can ask for is one of the seven meaningful
types, so that operands which are there are accepted for their own types only.
-/

import WasmMachine.Proofs.Instruction.Families
import WasmMachine.Proofs.Instruction.WellFormed
import WasmMachine.Proofs.Typing.Relation

namespace WasmMachine

open Typing

theorem ValType.unknown_not_mem {types : List ValType} (valid : ∀ t ∈ types, t.isValid) :
    .unknown ∉ types := fun mem => absurd (valid _ mem) (by decide)

/-- All types of a signature mean something. -/
structure FuncType.Known (type : FuncType) : Prop where
  params : ∀ t ∈ type.params, t.isValid
  results : ∀ t ∈ type.results, t.isValid

/-- All types of a context mean something. -/
structure Typing.Context.Known (ctx : Context) : Prop where
  types : ∀ type ∈ ctx.types, type.Known
  funcs : ∀ type ∈ ctx.funcs, type.Known
  tables : ∀ t ∈ ctx.tables, t.elem.isRef
  globals : ∀ g ∈ ctx.globals, g.type.isValid
  locals : ∀ t ∈ ctx.locals, t.isValid
  results : ∀ t ∈ ctx.results, t.isValid

/-- Block types stand for signatures of types that mean something. -/
theorem BlockType.known_signature {types : List FuncType} {b : BlockType} {type : FuncType}
    (known : ∀ type ∈ types, type.Known) (found : BlockType.signature? types b = some type) :
    type.Known := by
  unfold BlockType.signature? at found
  split at found
  · next results shorthand =>
      cases found
      refine ⟨by simp, ?_⟩
      show ∀ t ∈ results, t.isValid
      unfold BlockType.shorthand? at shorthand
      repeat
        split at shorthand
        · cases shorthand
          decide
      cases shorthand
  · split at found
    · cases found
    · exact known type (List.mem_of_getElem? found)

/-! ## What instructions ask for -/

namespace Numeric

theorem Width.valid_int (w : Width) : w.int.isValid := by cases w <;> rfl
theorem Width.valid_float (w : Width) : w.float.isValid := by cases w <;> rfl

theorem Operation.valid_operands (op : Operation) : ∀ t ∈ op.operands, t.isValid := by
  cases op with
  | conversion c =>
      cases c <;> simp +decide [operands, Conversion.types, Width.valid_int, Width.valid_float]
  | _ w => simp [operands, Width.valid_int w, Width.valid_float w]

end Numeric

theorem MemoryAccess.valid_type {op : UInt8} {a : MemoryAccess}
    (known : MemoryAccess.ofOpcode op = some a) : a.type.isValid := by
  rcases MemoryAccess.type_of_ofOpcode known with is | is | is | is
  all_goals
    rw [is]
    decide

theorem VectorOp.valid_operands (op : VectorOp) : ∀ t ∈ op.signature.1, t.isValid := by
  cases op with
  | splat shape | replace shape => cases shape <;> decide
  | _ => simp +decide [signature]

namespace Typing

variable {ctx : Context}

theorem MiscTyped.valid_params {operands : List UInt32} {op : MiscOp} {type : FuncType}
    (known : ctx.Known) (typed : MiscTyped ctx operands op type) :
    ∀ t ∈ type.params, t.isValid := by
  have table {i : Nat} {t : TableType} (found : ctx.tables[i]? = some t) : t.elem.isValid :=
    ValType.isValid_of_isRef (known.tables t (List.mem_of_getElem? found))
  cases typed with
  | @truncate to64 from64 signed => cases from64 <;> simp +decide
  | tableGrow found => simp +decide [table found]
  | tableFill found => simp +decide [table found]
  | _ => decide

theorem VectorTyped.valid_params {imm : Instruction.VectorImmediate} {op : VectorOp}
    {type : FuncType} (typed : VectorTyped ctx imm op type) : ∀ t ∈ type.params, t.isValid := by
  cases typed with
  | load => decide
  | store => decide
  | lanes => exact op.valid_operands

/-- A typed select that comes from a binary names one of the meaningful types. -/
theorem valid_of_select {i : Instruction} {type : ValType} (wellFormed : i.wellFormed)
    (is : i.opcode = Opcode.selectTyped) (one : i.selectTypes = [type]) : type.isValid := by
  obtain ⟨op, imm, body, orElse⟩ := i
  obtain rfl : op = Opcode.selectTyped := is
  obtain ⟨suits, -⟩ := (Instruction.wellFormed_plain (by decide)).mp wellFormed
  unfold Instruction.selectTypes at one
  split at one
  · next types select =>
      obtain rfl : imm = some (.select types) := select
      subst one
      simpa [Immediate.suits] using suits
  · cases one

/-- The operands that an instruction takes have types that mean something. -/
theorem PlainTyped.valid_params {i : Instruction} {type : FuncType} (known : ctx.Known)
    (wellFormed : i.wellFormed) (typed : PlainTyped ctx i type) :
    ∀ t ∈ type.params, t.isValid := by
  cases typed with
  | numeric _ => exact Numeric.Operation.valid_operands _
  | load => simp +decide
  | store found => simp +decide [MemoryAccess.valid_type found]
  | call _ found => exact (known.funcs type (List.mem_of_getElem? found)).params
  | callIndirect _ _ _ found =>
      intro t mem
      rcases List.mem_append.mp mem with mem | mem
      · exact (known.types _ (List.mem_of_getElem? found)).params t mem
      · rw [List.mem_singleton.mp mem]
        decide
  | selectTyped is one => simp +decide [valid_of_select wellFormed is one]
  | localSet _ found => simp [known.locals _ (List.mem_of_getElem? found)]
  | localTee _ found => simp [known.locals _ (List.mem_of_getElem? found)]
  | globalSet _ found => simp [known.globals _ (List.mem_of_getElem? found)]
  | tableSet _ found =>
      simp +decide [ValType.isValid_of_isRef (known.tables _ (List.mem_of_getElem? found))]
  | misc _ _ typed => exact typed.valid_params known
  | vector _ _ typed => exact typed.valid_params
  | memoryGrow => decide
  | tableGet => simp +decide
  | _ => simp

end Typing

end WasmMachine
