/-
# Sizes stay within their limits

A memory has whole pages, no more than its type and the format allow; a table is no longer
than its type allows.  Both hold when they are made, and growing checks them again, whoever
grows: code of an instance, another importer, or the embedder through a view.  The check of
an import compares the size of the moment, and it is these bounds that make the answer good
for ever.

The modules are decoded and validated, and what the embedder defines has bounds in order.
-/

import WasmMachine.Proofs.Evolution.Operations

namespace WasmMachine

/-! ## Bounds -/

/-- The bounds of a memory are in order. -/
structure MemoryType.Sound (t : MemoryType) : Prop where
  min : t.limits.min.toNat ≤ maxPages
  max : ∀ most, t.limits.max = some most → t.limits.min.toNat ≤ most.toNat

/-- The bounds of a table are in order. -/
def TableType.Sound (t : TableType) : Prop :=
  ∀ most, t.limits.max = some most → t.limits.min.toNat ≤ most.toNat

/-- The bounds that a definition of the embedder states are in order. -/
def HostDef.Sound (d : HostDef) : Prop :=
  match d.item with
  | .table t => t.Sound
  | .memory t => t.Sound
  | _ => True

/-- A module that was decoded from bytes and validated. -/
def Module.Accepted (m : Module) : Prop :=
  ∃ bytes, Module.decode bytes = .ok m ∧ m.validate = .ok ()

/-- A memory has whole pages, and no more than it may have. -/
structure MemInst.Bounded (m : MemInst) : Prop where
  whole : pageSize ∣ m.data.size
  pages : m.pages ≤ maxPages
  max : ∀ most, m.type.limits.max = some most → m.pages ≤ most.toNat

/-- A table is no longer than its type allows. -/
def TableInst.Bounded (t : TableInst) : Prop :=
  ∀ most, t.type.limits.max = some most → t.elems.size ≤ most.toNat

/-- All memories and tables are within their limits. -/
structure Store.Bounded (s : Store) : Prop where
  memories : ∀ (addr : Addr) (m : MemInst), s.memories[addr]? = some m → m.Bounded
  tables : ∀ (addr : Addr) (t : TableInst), s.tables[addr]? = some t → t.Bounded

/-! ## Validated modules -/

namespace Module

theorem sound_of_checkMemoryType {origin : Origin} {i : Nat} {t : MemoryType} {u : Unit}
    (ok : checkMemoryType origin i t = .ok u) : t.Sound := by
  obtain ⟨few, stated⟩ := bounds_of_checkMemoryType ok
  exact ⟨few, fun most is => (stated most is).2⟩

theorem sound_of_checkTableType {origin : Origin} {i : Nat} {t : TableType} {u : Unit}
    (ok : checkTableType origin i t = .ok u) : t.Sound :=
  (bounds_of_checkTableType ok).2

/-- The bounds of what a validated module defines are in order. -/
theorem sound_of_validate {m : Module} (validated : m.validate = .ok ()) :
    (∀ t ∈ m.memories, t.Sound) ∧ ∀ t ∈ m.tables, t.Sound := by
  obtain ⟨_, limits⟩ := (soundIndices_of_checkStructure (parts_of_validate validated).1).limits
  obtain ⟨_, -, limits⟩ := Typing.bind_eq_ok_iff.mp limits
  obtain ⟨_, memories, tables⟩ := Typing.bind_eq_ok_iff.mp limits
  constructor
  · intro t mem
    obtain ⟨i, passed⟩ := checkEach_eq_ok memories t mem
    exact sound_of_checkMemoryType passed
  · intro t mem
    obtain ⟨i, passed⟩ := checkEach_eq_ok tables t mem
    exact sound_of_checkTableType passed

end Module

/-! ## Growing within bounds -/

theorem TableInst.limit_le (t : TableInst) :
    t.limit ≤ maxTableElems ∧ ∀ most, t.type.limits.max = some most → t.limit ≤ most.toNat := by
  unfold limit
  cases t.type.limits.max with
  | none => exact ⟨Nat.le_refl _, fun _ stated => nomatch stated⟩
  | some most =>
      refine ⟨Nat.min_le_right _ _, fun _ stated => ?_⟩
      cases stated
      exact Nat.min_le_left _ _

theorem MemInst.limit_le (m : MemInst) :
    m.limit ≤ maxPages ∧ ∀ most, m.type.limits.max = some most → m.limit ≤ most.toNat := by
  unfold limit
  cases m.type.limits.max with
  | none => exact ⟨Nat.le_refl _, fun _ stated => nomatch stated⟩
  | some most =>
      refine ⟨Nat.min_le_right _ _, fun _ stated => ?_⟩
      cases stated
      exact Nat.min_le_left _ _

theorem pageSize_pos : 0 < pageSize := by decide

theorem MemInst.pages_grow (m : MemInst) (count : Nat) :
    (m.grow count).pages = m.pages + count := by
  unfold pages
  rw [size_bytes, m.size_grow, Nat.add_mul_div_right _ _ pageSize_pos, m.size_bytes]

theorem MemInst.Bounded.grow {m : MemInst} (bounded : m.Bounded) {count : Nat}
    (room : m.mayGrow count = true) : (m.grow count).Bounded := by
  have room : m.pages + count ≤ m.limit := of_decide_eq_true room
  obtain ⟨format, stated⟩ := m.limit_le
  refine ⟨?_, ?_, ?_⟩
  · rw [m.size_grow]
    exact Nat.dvd_add bounded.whole (Nat.dvd_mul_left pageSize count)
  · rw [m.pages_grow]
    exact Nat.le_trans room format
  · intro most known
    rw [m.type_grow] at known
    rw [m.pages_grow]
    exact Nat.le_trans room (stated most known)

theorem TableInst.Bounded.grow {t : TableInst} {count : Nat} (room : t.mayGrow count = true)
    (r : Ref) : (t.grow count r).Bounded := by
  have room : t.elems.size + count ≤ t.limit := of_decide_eq_true room
  intro most known
  show (Cells.append t.elems count r).size ≤ most.toNat
  rw [Cells.size_append]
  exact Nat.le_trans room (t.limit_le.2 most known)

/-- Writing does not change the number of pages. -/
theorem MemInst.Bounded.write {m : MemInst} (bounded : m.Bounded) (start : Nat)
    (bytes : List UInt8) : (m.write start bytes).Bounded := by
  have pages : (m.write start bytes).pages = m.pages := by
    unfold MemInst.pages
    rw [size_bytes, m.size_write, m.size_bytes]
  refine ⟨?_, ?_, ?_⟩
  · rw [m.size_write]
    exact bounded.whole
  · rw [pages]
    exact bounded.pages
  · rw [pages]
    exact bounded.max

theorem MemInst.size_initial (t : MemoryType) :
    (initial t).data.size = t.limits.min.toNat * pageSize := by
  rw [initial_eq]
  exact Array.size_replicate

/-- A new memory has the pages that its type starts with. -/
theorem MemInst.pages_initial (t : MemoryType) : (initial t).pages = t.limits.min.toNat := by
  unfold pages
  rw [size_bytes, size_initial, Nat.mul_div_cancel _ pageSize_pos]

theorem MemoryType.Sound.bounded {t : MemoryType} (sound : t.Sound) :
    (MemInst.initial t).Bounded := by
  refine ⟨?_, ?_, ?_⟩
  · rw [MemInst.size_initial]
    exact Nat.dvd_mul_left pageSize _
  · rw [MemInst.pages_initial]
    exact sound.min
  · rw [MemInst.pages_initial]
    exact sound.max

theorem TableType.Sound.bounded {t : TableType} (sound : t.Sound) :
    TableInst.Bounded ⟨t, Array.replicate t.limits.min.toNat (.null t.elem)⟩ := by
  intro most stated
  rw [Array.size_replicate]
  exact sound most stated

namespace Store

variable {s s' : Store}

theorem bounded_empty : ({} : Store).Bounded where
  memories _ _ found := nomatch found
  tables _ _ found := nomatch found

theorem Bounded.change (bounded : s.Bounded) (change : s.Change s') : s'.Bounded := by
  cases change with
  | writeMemory addr start bytes =>
      exact ⟨forall_modify bounded.memories fun m _ held => held.write start bytes,
        bounded.tables⟩
  | growMemory found room =>
      refine ⟨forall_modify bounded.memories fun m found' held => ?_, bounded.tables⟩
      cases found.symm.trans found'
      exact held.grow room
  | writeTable addr start refs =>
      refine ⟨bounded.memories, forall_modify bounded.tables fun t _ held most stated => ?_⟩
      show (Cells.overwrite t.elems start refs).size ≤ most.toNat
      rw [Cells.size_overwrite]
      exact held most stated
  | growTable r found room =>
      refine ⟨bounded.memories, forall_modify bounded.tables fun t found' _ => ?_⟩
      cases found.symm.trans found'
      exact .grow room r
  | dropData addr => exact ⟨bounded.memories, bounded.tables⟩
  | dropElem addr => exact ⟨bounded.memories, bounded.tables⟩
  | writeGlobal _ _ _ => exact ⟨bounded.memories, bounded.tables⟩
  | keep name values => exact ⟨bounded.memories, bounded.tables⟩

theorem Bounded.evolve (bounded : s.Bounded) (evolves : s.Evolves s') : s'.Bounded :=
  evolves.keeps (fun _ _ change bounded => bounded.change change) bounded

theorem Bounded.addTable (bounded : s.Bounded) {t : TableType} (sound : t.Sound) :
    (s.addTable t).2.Bounded := ⟨bounded.memories, forall_push bounded.tables sound.bounded⟩

theorem Bounded.addMemory (bounded : s.Bounded) {t : MemoryType} (sound : t.Sound) :
    (s.addMemory t).2.Bounded := ⟨forall_push bounded.memories sound.bounded, bounded.tables⟩

/-- What a module adds is within its limits when the bounds that the module states are in
order. -/
theorem Bounded.add {m : Module} {id : InstanceId} (bounded : s.Bounded)
    (memories : ∀ t ∈ m.memories, t.Sound) (tables : ∀ t ∈ m.tables, t.Sound)
    (addition : s.Addition m id s') : s'.Bounded := by
  cases addition with
  | @table t mem =>
      have added := bounded.addTable (tables t mem)
      exact ⟨added.memories, added.tables⟩
  | @memory t mem =>
      have added := bounded.addMemory (memories t mem)
      exact ⟨added.memories, added.tables⟩
  | _ => exact ⟨bounded.memories, bounded.tables⟩

end Store

/-! ## Operations -/

namespace Linker

variable {l l' : Linker}

/-- The operations of an embedder whose modules are decoded and validated, and whose own
definitions have bounds in order. -/
abbrev Proper : Linker → Linker → Prop := Operation Module.Accepted HostDef.Sound

theorem bounded_addHostDef {mod : String} {d : HostDef} (sound : d.Sound) (inst : ModuleInstance)
    (bounded : l.machine.store.Bounded) {Bad : LinkStop → Linker → Prop} :
    Ends (Link.addHostDef mod inst d) l (fun _ l' => l'.machine.store.Bounded) Bad := by
  obtain ⟨name, item⟩ := d
  cases item with
  | func type behaviour => exact Ends.of_ok rfl ⟨bounded.memories, bounded.tables⟩
  | table type => exact Ends.of_ok rfl (bounded.addTable sound)
  | memory type => exact Ends.of_ok rfl (bounded.addMemory sound)
  | global type value => exact Ends.of_ok rfl ⟨bounded.memories, bounded.tables⟩

/-- Every operation leaves memories and tables within their limits when the modules are
validated. -/
theorem Operation.bounded_of_validated {Accepted : Module → Prop}
    (validated : ∀ m, Accepted m → m.validate = .ok ())
    (operation : l.Operation Accepted HostDef.Sound l') (bounded : l.machine.store.Bounded) :
    l'.machine.store.Bounded := by
  cases operation with
  | @hostModule mod defs offered =>
      refine Ends.after (P := fun l : Linker => l.machine.store.Bounded)
        (Link.hostModule_keeps (fun l => l.machine.store.Bounded) bounded ?_ ?_)
      · exact fun d mem _ inst l bounded => bounded_addHostDef (offered d mem) inst bounded
      · intro inst l l' bounded same
        rw [same]
        exact ⟨bounded.memories, bounded.tables⟩
  | @instantiate fuel m name accepted =>
      obtain ⟨memories, tables⟩ := Module.sound_of_validate (validated m accepted)
      refine Ends.after (P := fun l : Linker => l.machine.store.Bounded)
        (Link.instantiate_keeps fuel name bounded ?_ ?_ ?_)
      · exact fun _ _ => ⟨bounded.memories, bounded.tables⟩
      · exact fun _ _ bounded addition => bounded.add memories tables addition
      · exact fun _ _ bounded evolves => bounded.evolve evolves
  | @invoke fuel addr args =>
      have ends := Ends.mono (Run.invoke_evolves fuel addr args l.machine) (fun _ _ => id)
        fun _ _ stopped => stopped.1
      exact bounded.evolve ends.after
  | @write view offset bytes s written => exact bounded.evolve (.of_viewed (MemoryView.viewed_of_write written))
  | @grow view count old s grown => exact bounded.evolve (.of_viewed (MemoryView.viewed_of_grow grown))
  | share same _ => exact same ▸ bounded

theorem Operation.bounded (operation : l.Proper l') (bounded : l.machine.store.Bounded) :
    l'.machine.store.Bounded := by
  refine operation.bounded_of_validated (fun m accepted => ?_) bounded
  obtain ⟨bytes, -, validated⟩ := accepted
  exact validated

end Linker

end WasmMachine
