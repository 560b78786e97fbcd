/-
# Upright linkers

A linker is upright when it comes about from an empty store by making modules of the
embedder's definitions, by instantiating modules that were decoded and accepted, and by
invoking functions, and when all values that came in on the way mean something in the store:
those that the embedder passed and those that host functions handed over.  Host functions
may call back, and their results need not be of the types that they declare.

In an upright linker everything has the type of its place and all code is checked.
-/

import WasmMachine.Proofs.Safety.HostModule

namespace WasmMachine

/-- The host functions of a store hand over nothing but values that mean something in a store
of `n` functions. -/
def Store.Honest (n : Nat) (s : Store) : Prop := ∀ f, .host f ∈ s.funcs → f.Honest n

/-- An action of the linker ends or fails, and leaves a linker behind. -/
def Link.Leaves {α : Type} (action : Link α) (l l' : Linker) : Prop :=
  (∃ a, action l = .ok a l') ∨ ∃ e, action l = .error (.failed e) l'

/-- An action of the machine ends or stops, and leaves a machine behind. -/
def Run.Leaves {α : Type} (action : Run α) (m m' : Machine) : Prop :=
  (∃ a, action m = .ok a m') ∨ ∃ stop, stop ≠ .outOfFuel ∧ action m = .error stop m'

namespace Linker

/-- The linkers that an embedder can get to who passes only values that mean something, and
so do his host functions. Each step may fail, and what a failure leaves behind is upright
too. -/
inductive Upright : Linker → Prop
  | start {l : Linker} (empty : l.machine.store = {}) : Upright l
  | share {l l' : Linker} (before : Upright l) (same : l'.machine.store = l.machine.store) :
      Upright l'
  | hostModule {l l' : Linker} {mod : String} {defs : List HostDef} (before : Upright l)
      (valid : ∀ d ∈ defs, ∀ type v, d.item = .global type (some v) →
        v.Valid l.machine.store.funcs.size)
      (leaves : (Link.hostModule mod defs).Leaves l l') : Upright l'
  | instantiate {l l' : Linker} {bytes : List UInt8} {m : Module} {fuel : Nat} {name : String}
      (before : Upright l) (decoded : Module.decode bytes = .ok m)
      (validated : m.validate = .ok ())
      (honest : l.machine.store.Honest (l.machine.store.funcs.size + m.funcs.length))
      (leaves : (Link.instantiate fuel m name).Leaves l l') : Upright l'
  | invoke {l : Linker} {machine : Machine} {fuel : Nat} {addr : Addr}
      {args : List (Option Value)} (before : Upright l)
      (honest : l.machine.store.Honest l.machine.store.funcs.size)
      (valid : ∀ v, some v ∈ args → v.Valid l.machine.store.funcs.size)
      (leaves : (Run.invoke fuel addr args).Leaves l.machine machine) :
      Upright { l with machine := machine }

/-- There is nothing in the empty store that could be out of order. -/
theorem ready_empty : ({} : Store).Ready where
  typed :=
    { tables := fun _ _ found => nomatch found
      globals := fun _ _ found => nomatch found
      elems := fun _ _ found => nomatch found
      kept := fun _ mem => nomatch mem }
  code _ mem := nomatch mem

variable {l : Linker}

/-- Every step to an upright linker keeps the store ready. -/
theorem Upright.ready (upright : l.Upright) : l.machine.store.Ready := by
  induction upright with
  | start empty =>
      rw [empty]
      exact ready_empty
  | share _ same ih =>
      rw [same]
      exact ih
  | @hostModule l l' mod defs _ valid leaves ih =>
      have ends : Ends (Link.hostModule mod defs) l _ _ := Link.hostModule_ends ih valid
      rcases leaves with ⟨id, ran⟩ | ⟨e, ran⟩
      · exact ends.good ran
      · exact ends.bad ran
  | @instantiate l l' bytes m fuel name _ decoded validated honest leaves ih =>
      have checked := Module.checked_of_decode decoded validated
      have ends := Link.instantiate_ends checked ih
        (fun f mem => honest f (Array.mem_def.mpr mem)) fuel name
      rcases leaves with ⟨id, ran⟩ | ⟨e, ran⟩
      · exact ends.good ran
      · exact ends.bad ran nofun
  | @invoke l machine fuel addr args _ honest valid leaves ih =>
      have lawful := ih.lawful fun f mem => honest f (Array.mem_def.mpr mem)
      have ends := Run.invoke_keeps lawful ih.of addr valid fuel
      rcases leaves with ⟨results, ran⟩ | ⟨stop, fueled, ran⟩
      · exact ih.of_shape (ends.good ran)
      · exact ih.of_shape (ends.bad ran fueled)

end Linker

end WasmMachine
