/-
# Constant expressions have values

A constant expression that the checker accepted has a value as soon as the instance has
the functions of the module and the globals that the expression may read.  The value is
either written in the expression or what a global that cannot be written holds; so it has
the type it was checked for in every store whose immutable globals hold what they should.
-/

import WasmMachine.Link.Constant
import WasmMachine.Proofs.Safety.Known
import WasmMachine.Proofs.Safety.Store
import WasmMachine.Proofs.Typing.Signature
import WasmMachine.Typing.Constant

namespace WasmMachine

open Typing

/-- An instance has what constant expressions may use: the functions of a context and the
first of its globals. -/
structure Shape.Offers (σ : Shape) (inst : ModuleInstance) (ctx : Context) (readable : Nat) :
    Prop where
  funcs : Leads (σ.funcs.map (·.type)) inst.funcs ctx.funcs
  globals : ∀ (i : Nat) (type : GlobalType), i < readable → ctx.globals[i]? = some type →
    ∃ addr, inst.globals[i]? = some addr ∧ σ.globals[addr]? = some type

theorem Shape.Serves.offers {σ : Shape} {inst : ModuleInstance} {ctx : Context}
    (serves : σ.Serves inst ctx) (readable : Nat) : σ.Offers inst ctx readable where
  funcs := serves.funcs
  globals _ _ _ found := serves.globals.lookup found

namespace Instruction

/-- A null reference that comes from a binary is of a reference type. -/
theorem isRef_of_refNull {i : Instruction} (wellFormed : i.wellFormed)
    (is : i.opcode = Opcode.refNull) : i.refNullType.isRef := by
  obtain ⟨op, imm, body, orElse⟩ := i
  obtain rfl : op = Opcode.refNull := is
  obtain ⟨suits, -⟩ := (wellFormed_plain (by decide)).mp wellFormed
  cases imm with
  | none => exact absurd suits (by decide +kernel)
  | some imm =>
      cases imm with
      | refNull type =>
          have reference : type.isRef := by simpa [Immediate.suits] using suits
          exact reference
      | _ => simp +decide [Immediate.suits] at suits

/-- A vector constant that comes from a binary has its bytes. -/
theorem bytes_of_const {i : Instruction} (wellFormed : i.wellFormed)
    (is : i.opcode = Opcode.vector) (const : VectorOp.ofCode i.vector.sub = some .const) :
    ∃ bytes, i.vector.bytes = some bytes := by
  obtain ⟨op, imm, body, orElse⟩ := i
  obtain rfl : op = Opcode.vector := is
  obtain ⟨suits, -⟩ := (wellFormed_plain (by decide)).mp wellFormed
  cases imm with
  | none => exact absurd suits (by decide +kernel)
  | some imm =>
      cases imm with
      | simd sub lane arg bytes =>
          have const : VectorOp.ofCode sub = some .const := const
          simp only [Immediate.suits, const, Option.any_some, Bool.and_eq_true] at suits
          obtain ⟨-, takes⟩ := suits
          simp only [VectorOp.takes, VectorOp.immediate, VectorImmediateSort.allows,
            Bool.and_eq_true] at takes
          exact Option.isSome_iff_exists.mp takes.2
      | _ => simp +decide [Immediate.suits] at suits

end Instruction

namespace Store

/-- What a constant expression of a type can give: a value of the type, or what an
immutable global of the type holds. -/
inductive Gives (s : Store) : ValType → Value → Prop
  | value {type : ValType} {v : Value} : v.Has s.shape.size type → Gives s type v
  | global {addr : Addr} {g : GlobalInst} :
      s.globals[addr]? = some g → g.type.mutable = false → Gives s g.type.type g.value

variable {s : Store} {inst : ModuleInstance} {ctx : Context} {readable : Nat}

/-- In a typed store it is a value of the type in either case. -/
theorem Gives.has {type : ValType} {v : Value} (gives : s.Gives type v)
    (typed : s.Typed s.shape.size) : v.Has s.shape.size type := by
  cases gives with
  | value has => exact has
  | @global addr g held _ => exact typed.globals addr g held

theorem constantValue_gives (offers : s.shape.Offers inst ctx readable) {i : Instruction}
    (wellFormed : i.wellFormed) {type : ValType} (typed : constantType ctx readable i = .ok type) :
    ∃ v, s.constantValue inst i = .ok v ∧ s.Gives type v := by
  unfold constantType at typed
  split at typed
  · next is =>
      cases typed
      exact ⟨.i32 i.i32Bits, by simp only [constantValue, is], .value (.i32 _)⟩
  · next is =>
      cases typed
      exact ⟨.i64 i.i64Bits, by simp only [constantValue, is], .value (.i64 _)⟩
  · next is =>
      cases typed
      exact ⟨.f32 i.f32Bits, by simp only [constantValue, is], .value (.f32 _)⟩
  · next is =>
      cases typed
      exact ⟨.f64 i.f64Bits, by simp only [constantValue, is], .value (.f64 _)⟩
  · next is =>
      cases typed
      have reference := Instruction.isRef_of_refNull wellFormed is
      exact ⟨.ref (.null i.refNullType), by simp only [constantValue, is], .value ⟨rfl, reference⟩⟩
  · next is =>
      obtain ⟨t, found, returned⟩ := bind_eq_ok_iff.mp typed
      cases returned
      unfold entry at found
      split at found
      · next known =>
          obtain ⟨addr, there, leads⟩ := offers.funcs.lookup known
          obtain ⟨inside, -⟩ := List.getElem?_eq_some_iff.mp leads
          rw [List.length_map] at inside
          exact ⟨.ref (.func addr), by simp only [constantValue, is, there], .value ⟨rfl, inside⟩⟩
      · cases found
  · next is =>
      simp only at typed
      split at typed
      · cases typed
      · next early =>
          split at typed
          · cases typed
          · next type' known =>
              split at typed
              · cases typed
              · next immutable =>
                  cases typed
                  obtain ⟨addr, there, leads⟩ :=
                    offers.globals _ _ (Nat.lt_of_not_le early) known
                  obtain ⟨g, held, rfl⟩ := exists_global leads
                  refine ⟨g.value,
                    by simp only [constantValue, is, there, Option.bind_some, held], ?_⟩
                  exact .global held (Bool.eq_false_iff.mpr immutable)
  · next is =>
      split at typed
      · next const =>
          cases typed
          obtain ⟨bytes, some⟩ := Instruction.bytes_of_const wellFormed is const
          exact ⟨.v128 bytes, by simp only [constantValue, is, const, some], .value (.v128 _)⟩
      · cases typed
  · cases typed

/-- What gives one result for one item each was given one item. -/
theorem singleton_of_mapM {ε α β : Type} {f : α → Except ε β} {items : List α} {b : β}
    (each : items.mapM f = .ok [b]) : ∃ a, items = [a] ∧ f a = .ok b := by
  cases items with
  | nil => cases each
  | cons a rest =>
      rw [List.mapM_cons] at each
      obtain ⟨_, first, each⟩ := bind_eq_ok_iff.mp each
      obtain ⟨bs, others, returned⟩ := bind_eq_ok_iff.mp each
      cases returned
      cases rest with
      | nil => exact ⟨a, rfl, first⟩
      | cons a' rest =>
          rw [List.mapM_cons] at others
          obtain ⟨_, -, others⟩ := bind_eq_ok_iff.mp others
          obtain ⟨_, -, returned⟩ := bind_eq_ok_iff.mp others
          cases returned

/-- A checked constant expression is one instruction, of the wanted type. -/
theorem singleton_of_checkConstant {expr : List Instruction} {want : ValType}
    (checked : checkConstant ctx expr want readable = .ok ()) :
    ∃ i, expr = [i] ∧ constantType ctx readable i = .ok want := by
  obtain ⟨types, each, only⟩ := bind_eq_ok_iff.mp checked
  have one : types = [want] := by
    by_contra other
    rw [if_pos other] at only
    cases only
  subst one
  exact singleton_of_mapM each

/-- A constant expression gives the one value that it was checked for. -/
theorem constant_gives (offers : s.shape.Offers inst ctx readable) {expr : List Instruction}
    (wellFormed : Instruction.allWellFormed expr) {want : ValType}
    (checked : checkConstant ctx expr want readable = .ok ()) :
    ∃ v, s.constant inst expr = .ok v ∧ s.Gives want v := by
  obtain ⟨i, rfl, typed⟩ := singleton_of_checkConstant checked
  obtain ⟨v, ran, gives⟩ := constantValue_gives offers
    (Instruction.wellFormed_of_mem wellFormed List.mem_cons_self) typed
  refine ⟨v, ?_, gives⟩
  simp [constant, ran, bind, Except.bind, pure, Except.pure]

end Store

end WasmMachine
