/-
# What imports are bound to

When the imports of a module resolve, each is bound to something that the instance of its
module's name exports under its name.  The bindings come in the order of the imports.
-/

import WasmMachine.Proofs.Safety.Allocation

namespace WasmMachine

open Typing

/-- What a list of checks gives belongs to the items one by one. -/
theorem forall₂_of_mapM {ε α β : Type} {f : α → Except ε β} {items : List α} {results : List β}
    (ran : items.mapM f = .ok results) :
    List.Forall₂ (fun item result => f item = .ok result) items results := by
  induction items generalizing results with
  | nil =>
      cases ran
      exact .nil
  | cons item rest ih =>
      rw [List.mapM_cons] at ran
      obtain ⟨result, first, ran⟩ := bind_eq_ok_iff.mp ran
      obtain ⟨others, later, returned⟩ := bind_eq_ok_iff.mp ran
      cases returned
      exact .cons first (ih later)

namespace Linker

variable {l : Linker} {m : Module} {externs : List Extern}

theorem forall₂_of_resolve (resolved : l.resolve m = .ok externs) :
    List.Forall₂ (fun imp found => l.resolveImport m.types imp = .ok found) m.imports externs := by
  refine (forall₂_of_mapM resolved).imp fun imp found ran => ?_
  cases bound : l.resolveImport m.types imp with
  | ok found' =>
      rw [bound] at ran
      cases ran
      rfl
  | error problem =>
      rw [bound] at ran
      cases ran

/-- What an import is bound to is exported by a registered instance. -/
theorem exported_of_resolveImport {types : List FuncType} {imp : Import} {found : Extern}
    (resolved : l.resolveImport types imp = .ok found) :
    ∃ id inst, (imp.mod, id) ∈ l.registry ∧ l.machine.store.instances[id]? = some inst ∧
      (imp.name, found) ∈ inst.exports := by
  unfold resolveImport at resolved
  split at resolved
  · cases resolved
  · next inst held =>
      split at resolved
      · cases resolved
      · next found' exported =>
          split at resolved
          · cases resolved
          · obtain ⟨_, -, returned⟩ := bind_eq_ok_iff.mp resolved
            cases returned
            obtain ⟨id, named, there⟩ := Option.bind_eq_some_iff.mp held
            obtain ⟨before, after, same, -⟩ := List.lookup_eq_some_iff.mp named
            obtain ⟨before', after', same', -⟩ := List.lookup_eq_some_iff.mp exported
            exact ⟨id, inst, by simp [same], there, by simp [same']⟩

/-- What imports are bound to is exported. -/
theorem exported_of_resolve (resolved : l.resolve m = .ok externs) {found : Extern}
    (mem : found ∈ externs) :
    ∃ id inst name, (∃ mod, (mod, id) ∈ l.registry) ∧
      l.machine.store.instances[id]? = some inst ∧ (name, found) ∈ inst.exports := by
  obtain ⟨i, there⟩ := List.getElem?_of_mem mem
  obtain ⟨imp, -, bound⟩ := exists_getElem?_of_forall₂ (forall₂_of_resolve resolved) there
  obtain ⟨id, inst, named, held, exported⟩ := exported_of_resolveImport bound
  exact ⟨id, inst, imp.name, ⟨imp.mod, named⟩, held, exported⟩

end Linker

end WasmMachine
