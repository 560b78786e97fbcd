/-
# Type soundness

A linker is reachable when it comes about from an empty store by making modules of the
embedder's definitions, by instantiating modules that were decoded and accepted, and by
invoking functions.  Each of these may fail, and what a failure leaves behind is reachable
too.  In a reachable linker an invocation whose arguments are accepted gives values of the
result types or stops with one of the traps that typed code can run into: what the checker
said about a program is what the machine finds.
-/

import WasmMachine.Embedding.Basic
import WasmMachine.Proofs.Safety.Upright

namespace WasmMachine

/-- The host functions of a store keep their promises in a store of `n` functions. -/
def Store.Tame (n : Nat) (s : Store) : Prop := ∀ f, .host f ∈ s.funcs → f.Tame n

theorem Store.Tame.honest {n : Nat} {s : Store} (tame : s.Tame n) : s.Honest n :=
  fun f mem => (tame f mem).honest

namespace Linker

/-- The linkers that an embedder can get to. Several linkers and machines may share a
store. While code runs, host functions are tame; and whatever values the embedder passes
have a meaning in the store. -/
inductive Reachable : Linker → Prop
  | start {l : Linker} (empty : l.machine.store = {}) : Reachable l
  | share {l l' : Linker} (before : Reachable l) (same : l'.machine.store = l.machine.store) :
      Reachable l'
  | hostModule {l l' : Linker} {mod : String} {defs : List HostDef} (before : Reachable l)
      (valid : ∀ d ∈ defs, ∀ type v, d.item = .global type (some v) →
        v.Valid l.machine.store.funcs.size)
      (leaves : (Link.hostModule mod defs).Leaves l l') : Reachable l'
  | instantiate {l l' : Linker} {bytes : List UInt8} {m : Module} {fuel : Nat} {name : String}
      (before : Reachable l) (decoded : Module.decode bytes = .ok m)
      (validated : m.validate = .ok ())
      (tame : l.machine.store.Tame (l.machine.store.funcs.size + m.funcs.length))
      (leaves : (Link.instantiate fuel m name).Leaves l l') : Reachable l'
  | invoke {l : Linker} {machine : Machine} {fuel : Nat} {addr : Addr}
      {args : List (Option Value)} (before : Reachable l)
      (tame : l.machine.store.Tame l.machine.store.funcs.size)
      (valid : ∀ v, some v ∈ args → v.Valid l.machine.store.funcs.size)
      (leaves : (Run.invoke fuel addr args).Leaves l.machine machine) :
      Reachable { l with machine := machine }

variable {l : Linker}

/-- Tame host functions are honest. -/
theorem Reachable.upright (reachable : l.Reachable) : l.Upright := by
  induction reachable with
  | start empty => exact .start empty
  | share _ same ih => exact ih.share same
  | hostModule _ valid leaves ih => exact ih.hostModule valid leaves
  | instantiate _ decoded validated tame leaves ih =>
      exact ih.instantiate decoded validated tame.honest leaves
  | invoke _ tame valid leaves ih => exact ih.invoke tame.honest valid leaves

/-- In a reachable linker everything has the type of its place and all code is checked. -/
theorem Reachable.ready (reachable : l.Reachable) : l.machine.store.Ready :=
  reachable.upright.ready

/-- Type soundness: with arguments of its parameter types, valid in the store, a function
of a reachable store gives values of its result types or runs into one of the expected
traps, unless it goes on for longer than the fuel allows. -/
theorem Reachable.invoke_sound (reachable : l.Reachable)
    (tame : l.machine.store.Tame l.machine.store.funcs.size) {addr : Addr} {f : FuncInst}
    (found : l.machine.store.funcs[addr]? = some f) {args : List (Option Value)}
    (matched : Value.matchTypes args f.type.params = true)
    (valid : ∀ v, some v ∈ args → v.Valid l.machine.store.funcs.size) (fuel : Nat) :
    (∀ results m', Run.invoke fuel addr args l.machine = .ok results m' →
      results.map (·.type) = f.type.results) ∧
    ∀ stop m', Run.invoke fuel addr args l.machine = .error stop m' → stop ≠ .outOfFuel →
      ∃ t : Trap, stop = .trap t ∧ t.Expected := by
  have ready := reachable.ready
  have sound := ready.sound fun f mem => tame f (Array.mem_def.mpr mem)
  have held : l.machine.store.shape.funcs[addr]? = some f := (ready.of.func addr).symm.trans found
  have ends := Run.invoke_ends sound ready.of held matched valid fuel
  constructor
  · intro results m' ran
    exact (ends.good ran).1.map_type
  · intro stop m' ran fueled
    have stopped := ends.bad ran
    cases stop with
    | trap t => exact ⟨t, rfl, stopped.1⟩
    | refused r => exact stopped.elim
    | outOfFuel => exact absurd rfl fueled

/-- A module whose function divides its argument by what an imported function gives for
it. -/
def quotientBytes : List UInt8 :=
  [0x00, 0x61, 0x73, 0x6d, 1, 0, 0, 0,
    1, 6, 1, 0x60, 1, 0x7f, 1, 0x7f,
    2, 10, 1, 3, 0x65, 0x6e, 0x76, 2, 0x69, 0x64, 0, 0,
    3, 2, 1, 0,
    10, 11, 1, 9, 0, 0x20, 0, 0x20, 0, 0x10, 0, 0x6d, 0x0b]

/-- What these bytes hold. -/
def quotientModule : Module :=
  { types := [⟨[.i32], [.i32]⟩]
    imports := [⟨"env", "id", ⟨.func, 0, none, none, none⟩⟩]
    funcs := [0]
    code := [⟨[], [.plain Opcode.localGet (some (.localIndex 0)),
      .plain Opcode.localGet (some (.localIndex 0)), .plain Opcode.call (some (.call 0)),
      .plain 0x6d none]⟩] }

/-- The imported function gives back its argument. -/
def identity : HostCode := ⟨"env.id", ⟨[.i32], [.i32]⟩, .echo⟩

/-- A fresh linker with the imported function. -/
def identityLinker : Linker :=
  match Link.hostModule "env" [⟨"id", .func identity.type (some identity.behaviour)⟩]
      (Embedding.new {}).linker with
  | .ok _ l => l
  | .error _ l => l

/-- The linker after the module has been instantiated. -/
def quotientLinker : Linker :=
  match Link.instantiate 1 quotientModule "" identityLinker with
  | .ok _ l => l
  | .error _ l => l

/-- The function of the module. -/
def quotient : Code := ⟨some 1, ⟨[.i32], [.i32]⟩, [], quotientModule.code.flatMap (·.body)⟩

theorem tame_identity (n : Nat) : identity.Tame n := by
  intro args typed
  refine ⟨Value.matchTypes_of_values typed, fun v mem => ?_⟩
  have passed : v ∈ args := by simpa using mem
  exact typed.valid passed

set_option maxRecDepth 20000 in
theorem reachable_quotientLinker : quotientLinker.Reachable := by
  have made : Link.hostModule "env" [⟨"id", .func identity.type (some identity.behaviour)⟩] {} =
      .ok 0 identityLinker := rfl
  have decoded : Module.decode quotientBytes = .ok quotientModule := rfl
  have ran : Link.instantiate 1 quotientModule "" identityLinker = .ok 1 quotientLinker := rfl
  have hosted : identityLinker.Reachable := by
    refine .hostModule (.start rfl) ?_ (.inl ⟨0, made⟩)
    intro d mem
    cases List.mem_singleton.mp mem
    intro _ _ same
    cases same
  refine .instantiate hosted decoded rfl ?_ (.inl ⟨1, ran⟩)
  intro f mem
  have funcs : identityLinker.machine.store.funcs = #[.host identity] := rfl
  rw [funcs] at mem
  cases List.mem_singleton.mp (Array.mem_def.mp mem)
  exact tame_identity _

set_option maxRecDepth 20000 in
/-- The argument zero makes the function divide by zero, which is one of the traps. -/
theorem invoke_sound_quotient :
    quotientLinker.machine.store.funcs[1]? = some (.code quotient) ∧
      (∀ results m', Run.invoke 20 1 [some (.i32 0)] quotientLinker.machine = .ok results m' →
        results.map (·.type) = [.i32]) ∧
      ∀ stop m', Run.invoke 20 1 [some (.i32 0)] quotientLinker.machine = .error stop m' →
        stop ≠ .outOfFuel → ∃ t : Trap, stop = .trap t ∧ t.Expected := by
  have found : quotientLinker.machine.store.funcs[1]? = some (.code quotient) := rfl
  have funcs : quotientLinker.machine.store.funcs = #[.host identity, .code quotient] := rfl
  have tame : quotientLinker.machine.store.Tame quotientLinker.machine.store.funcs.size := by
    intro f mem
    rw [funcs] at mem
    rcases List.mem_cons.mp (Array.mem_def.mp mem) with host | code
    · cases host
      exact tame_identity _
    · cases List.mem_singleton.mp code
  refine ⟨found, reachable_quotientLinker.invoke_sound tame found rfl ?_ 20⟩
  intro v mem
  cases List.mem_singleton.mp mem
  trivial

end Linker

end WasmMachine
