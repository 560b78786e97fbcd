/-
# Modules of the embedder

Making a module of the embedder's definitions adds no code of modules to the store, and
what it does add has the type of its place as long as the values of its globals have a
meaning in the store.
-/

import WasmMachine.Link.HostModule
import WasmMachine.Proofs.Safety.Instantiation

namespace WasmMachine

namespace Store.Ready

variable {s s' : Store}

/-- A ready store stays ready when it grows by anything but code. -/
theorem grow_hosts (ready : s.Ready) (within : s.shape.Within s'.shape) {n : Nat}
    (typed : s'.Typed n) (bound : n ≤ s'.shape.size)
    (hosts : ∀ f, .code f ∈ s'.shape.funcs → .code f ∈ s.shape.funcs) : s'.Ready :=
  ready.grow within (typed.mono bound) fun f mem => .inl (hosts f mem)

theorem addHost (ready : s.Ready) (f : HostCode) : (s.addFunc (.host f)).2.Ready := by
  apply ready.grow_hosts (within_addFunc _) (ready.typed.addFunc _)
    (within_addFunc _).funcs.length_le
  intro g mem
  rw [shape_addFunc] at mem
  rcases List.mem_append.mp mem with old | new
  · exact old
  · cases List.mem_singleton.mp new

theorem addTable (ready : s.Ready) (t : TableType) : (s.addTable t).2.Ready :=
  ready.grow_hosts (within_addTable _) (ready.typed.addTable _) (Nat.le_refl _) fun _ mem => mem

theorem addMemory (ready : s.Ready) (t : MemoryType) : (s.addMemory t).2.Ready :=
  ready.grow_hosts (within_addMemory _) (ready.typed.addMemory _) (Nat.le_refl _) fun _ mem => mem

theorem addGlobal (ready : s.Ready) {t : GlobalType} {v : Value} (has : v.Has s.shape.size t.type) :
    (s.addGlobal t v).2.Ready :=
  ready.grow_hosts (within_addGlobal _ _) (ready.typed.addGlobal has) (Nat.le_refl _)
    fun _ mem => mem

theorem addInstance (ready : s.Ready) (inst : ModuleInstance) : (s.addInstance inst).2.Ready :=
  ready.grow_hosts (within_addInstance _) (ready.typed.addInstance _) (Nat.le_refl _)
    fun _ mem => mem

end Store.Ready

namespace Link

variable {l : Linker} {mod : String} {Bad : LinkStop → Linker → Prop}

/-- The store is ready and has at least `n` functions. -/
structure Prepared (n : Nat) (l : Linker) : Prop where
  ready : l.machine.store.Ready
  room : n ≤ l.machine.store.shape.size

/-- A checked global starts with a value of its type. -/
theorem exists_value_of_check {name : String} {type : GlobalType} {value : Option Value}
    (passed : HostDef.check mod ⟨name, .global type value⟩ = .ok ()) :
    ∃ v, value = some v ∧ v.type = type.type := by
  unfold HostDef.check at passed
  simp only at passed
  split at passed
  · next same => exact Option.map_eq_some_iff.mp same
  · cases passed

/-- A checked definition of the embedder can be added. -/
theorem addHostDef_ends {n : Nat} {d : HostDef} {inst : ModuleInstance}
    (passed : d.check mod = .ok ())
    (valid : ∀ type v, d.item = .global type (some v) → v.Valid n) (before : Prepared n l) :
    Ends (addHostDef mod inst d) l (fun _ l' => Prepared n l') Bad := by
  obtain ⟨ready, room⟩ := before
  obtain ⟨name, item⟩ := d
  cases item with
  | func type behaviour =>
      refine Ends.of_ok rfl ⟨ready.addHost _, ?_⟩
      exact Nat.le_trans room (Store.within_addFunc _).funcs.length_le
  | table type => exact Ends.of_ok rfl ⟨ready.addTable _, room⟩
  | memory type => exact Ends.of_ok rfl ⟨ready.addMemory _, room⟩
  | global type value =>
      obtain ⟨v, rfl, is⟩ := exists_value_of_check passed
      have has : v.Has l.machine.store.shape.size type.type :=
        ⟨is, (valid type v rfl).mono room⟩
      exact Ends.of_ok rfl ⟨ready.addGlobal has, room⟩

/-- What every checked definition keeps up holds after a module of the embedder has been
made, and also when a definition is refused. -/
theorem hostModule_keeps {defs : List HostDef} (Inv : Linker → Prop) (start : Inv l)
    (addDef : ∀ d ∈ defs, d.check mod = .ok () → ∀ inst l, Inv l →
      Ends (addHostDef mod inst d) l (fun _ l' => Inv l') fun _ l' => Inv l')
    (addInstance : ∀ inst l l', Inv l →
      l'.machine.store = (l.machine.store.addInstance inst).2 → Inv l') :
    Ends (hostModule mod defs) l (fun _ l' => Inv l') fun _ l' => Inv l' := by
  unfold hostModule
  cases passed : defs.forM (HostDef.check mod) with
  | error e => exact Ends.stop rfl start
  | ok u =>
      apply Ends.step rfl
      have checked := Module.forM_eq_ok passed
      refine Ends.bind (Ends.foldlM Inv start fun d mem => addDef d mem (checked d mem))
        fun inst l' after => ?_
      refine Ends.step (add_instance inst) ?_
      exact Ends.of_ok rfl (addInstance inst l' _ after rfl)

/-- Making a module of the embedder leaves a store that is ready, whether it succeeds or
fails. -/
theorem hostModule_ends {defs : List HostDef} (ready : l.machine.store.Ready)
    (valid : ∀ d ∈ defs, ∀ type v, d.item = .global type (some v) →
      v.Valid l.machine.store.shape.size) :
    Ends (hostModule mod defs) l (fun _ l' => l'.machine.store.Ready)
      (fun _ l' => l'.machine.store.Ready) := by
  refine Ends.mono (hostModule_keeps (Prepared l.machine.store.shape.size)
    ⟨ready, Nat.le_refl _⟩ ?_ ?_) (fun _ _ after => after.ready) fun _ _ after => after.ready
  · intro d mem passed inst l' before
    exact addHostDef_ends passed (valid d mem) before
  · rintro inst l' ⟨machine, registry⟩ before same
    refine ⟨?_, ?_⟩
    · rw [same]
      exact before.ready.addInstance inst
    · rw [same]
      exact before.room

end Link

end WasmMachine
