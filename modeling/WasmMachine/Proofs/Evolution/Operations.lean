/-
# What an embedder can do to a store

An embedder makes modules of its own definitions, instantiates modules, invokes functions,
and writes and grows memories through views.  Each of these may fail at any stage, or be cut
off in the middle; what it leaves behind is a store that extends the one before, in which
every address that an instance holds is still the address of something of its kind.  So the
addresses that an embedder or an instance has noted stay good for ever.
-/

import WasmMachine.Embedding.MemoryView
import WasmMachine.Proofs.Evolution.Extension
import WasmMachine.Proofs.Linking.Following
import WasmMachine.Proofs.Linking.Resolved
import WasmMachine.Proofs.Safety.HostModule

namespace WasmMachine

/-! ## Stores in order -/

/-- The number of things of a kind. Of a kind without a meaning there are none. -/
def Store.count (s : Store) (kind : ExternKind) : Nat :=
  match kind with
  | .func => s.funcs.size
  | .table => s.tables.size
  | .memory => s.memories.size
  | .global => s.globals.size
  | _ => 0

/-- Every address that an instance holds or exports is that of something of its kind. -/
structure ModuleInstance.InRange (s : Store) (inst : ModuleInstance) : Prop where
  addresses : ∀ kind, ∀ addr ∈ inst.addresses kind, addr < s.count kind
  elems : ∀ addr ∈ inst.elems, addr < s.elems.size
  datas : ∀ addr ∈ inst.datas, addr < s.datas.size
  exports : ∀ entry ∈ inst.exports, entry.2.addr < s.count entry.2.kind

/-- What globals hold is of their types. -/
def Store.GlobalsTyped (s : Store) : Prop :=
  ∀ (addr : Addr) (g : GlobalInst), s.globals[addr]? = some g → g.value.type = g.type.type

/-- Globals hold values of their types, and all instances are in range. -/
structure Store.Orderly (s : Store) : Prop where
  globals : s.GlobalsTyped
  instances : ∀ (id : InstanceId) (inst : ModuleInstance),
    s.instances[id]? = some inst → inst.InRange s

/-- The store is in order, and every name is that of an instance. -/
structure Linker.Orderly (l : Linker) : Prop where
  store : l.machine.store.Orderly
  registry : ∀ entry ∈ l.registry, entry.2 < l.machine.store.instances.size

namespace Store

variable {s s' : Store}

theorem Retains.count_le (retains : s.Retains s') (kind : ExternKind) :
    s.count kind ≤ s'.count kind := by
  unfold count
  split
  · exact retains.funcs.size_le
  · exact retains.tables.size_le
  · exact retains.memories.size_le
  · exact retains.globals.size_le
  · exact Nat.le_refl 0

end Store

namespace ModuleInstance

variable {s s' : Store} {inst : ModuleInstance}

theorem InRange.mono (inRange : inst.InRange s) (retains : s.Retains s') : inst.InRange s' where
  addresses kind addr mem :=
    Nat.lt_of_lt_of_le (inRange.addresses kind addr mem) (retains.count_le kind)
  elems addr mem := Nat.lt_of_lt_of_le (inRange.elems addr mem) retains.elems.size_le
  datas addr mem := Nat.lt_of_lt_of_le (inRange.datas addr mem) retains.datas.size_le
  exports entry mem :=
    Nat.lt_of_lt_of_le (inRange.exports entry mem) (retains.count_le entry.2.kind)

/-- An instance that has nothing yet. -/
theorem inRange_empty (s : Store) (name : String) (types : List FuncType) :
    InRange s { name := name, types := types } where
  addresses kind addr mem := by
    unfold ModuleInstance.addresses at mem
    split at mem
    all_goals cases Array.not_mem_empty addr mem
  elems addr mem := absurd mem (Array.not_mem_empty addr)
  datas addr mem := absurd mem (Array.not_mem_empty addr)
  exports entry mem := absurd mem List.not_mem_nil

/-- A new address is one of its kind. -/
theorem mem_addresses_addAddress {e : Extern} {kind : ExternKind} {addr : Addr}
    (mem : addr ∈ (inst.addAddress e).addresses kind) :
    addr ∈ inst.addresses kind ∨ kind = e.kind ∧ addr = e.addr := by
  obtain ⟨kind', addr'⟩ := e
  unfold addAddress at mem
  split at mem
  all_goals
    unfold addresses at mem ⊢
    split at mem
    all_goals simp_all +decide [Array.mem_push]

theorem exports_addAddress (inst : ModuleInstance) (e : Extern) :
    (inst.addAddress e).exports = inst.exports := by
  unfold addAddress
  split
  all_goals rfl

theorem addresses_addExport (inst : ModuleInstance) (name : String) (e : Extern)
    (kind : ExternKind) : (inst.addExport name e).addresses kind = inst.addresses kind := by
  unfold addresses
  rfl

theorem InRange.addAddress (inRange : inst.InRange s) {e : Extern} (there : e.addr < s.count e.kind) :
    (inst.addAddress e).InRange s where
  addresses kind addr mem := by
    rcases mem_addresses_addAddress mem with old | ⟨rfl, rfl⟩
    · exact inRange.addresses kind addr old
    · exact there
  elems := inst.elems_addAddress e ▸ inRange.elems
  datas := inst.datas_addAddress e ▸ inRange.datas
  exports := inst.exports_addAddress e ▸ inRange.exports

theorem InRange.addExport (inRange : inst.InRange s) (name : String) {e : Extern}
    (there : e.addr < s.count e.kind) : (inst.addExport name e).InRange s where
  addresses kind := inst.addresses_addExport name e kind ▸ inRange.addresses kind
  elems := inRange.elems
  datas := inRange.datas
  exports entry mem := by
    rcases List.mem_append.mp mem with old | new
    · exact inRange.exports entry (List.mem_filter.mp old).1
    · cases List.mem_singleton.mp new
      exact there

theorem InRange.withTypes (inRange : inst.InRange s) (types : List FuncType) :
    InRange s { inst with types := types } :=
  ⟨inRange.addresses, inRange.elems, inRange.datas, inRange.exports⟩

theorem InRange.pushElem (inRange : inst.InRange s) {addr : Addr} (there : addr < s.elems.size) :
    InRange s { inst with elems := inst.elems.push addr } where
  addresses := inRange.addresses
  elems := Array.forall_mem_push.mpr ⟨there, inRange.elems⟩
  datas := inRange.datas
  exports := inRange.exports

theorem InRange.pushData (inRange : inst.InRange s) {addr : Addr} (there : addr < s.datas.size) :
    InRange s { inst with datas := inst.datas.push addr } where
  addresses := inRange.addresses
  elems := inRange.elems
  datas := Array.forall_mem_push.mpr ⟨there, inRange.datas⟩
  exports := inRange.exports

/-- An instance starts in range when its imports are bound to things that are. -/
theorem inRange_fresh {m : Module} {name : String} {externs : List Extern}
    (bound : ∀ e ∈ externs, e.addr < s.count e.kind) : (fresh m name externs).InRange s :=
  List.foldlRecOn (motive := (InRange s)) externs addAddress (inRange_empty s name m.types)
    fun _ inRange e mem => inRange.addAddress (bound e mem)

end ModuleInstance

namespace Store

variable {s s' : Store}

/-! ## Keeping order -/

theorem orderly_empty : ({} : Store).Orderly where
  globals _ _ found := nomatch found
  instances _ _ found := nomatch found

/-- A store that keeps what is there, and gets no new instances, stays in order as long as
its globals do. -/
theorem Orderly.retain (orderly : s.Orderly) (retains : s.Retains s')
    (same : s'.instances = s.instances) (globals : s'.GlobalsTyped) : s'.Orderly where
  globals := globals
  instances id inst found := (orderly.instances id inst (same ▸ found)).mono retains

theorem Orderly.modifyInstance (orderly : s.Orderly) {id : InstanceId}
    {f : ModuleInstance → ModuleInstance}
    (kept : ∀ inst, s.instances[id]? = some inst → inst.InRange s → (f inst).InRange s) :
    (s.modifyInstance id f).Orderly where
  globals := orderly.globals
  instances id' inst found :=
    have inRange : inst.InRange s := forall_modify orderly.instances kept id' inst found
    inRange.mono (Retains.modifyInstance (.refl s) id f)

theorem Orderly.addInstance (orderly : s.Orderly) {inst : ModuleInstance}
    (inRange : inst.InRange s) : (s.addInstance inst).2.Orderly where
  globals := orderly.globals
  instances id inst' found :=
    have inRange' : inst'.InRange s := forall_push orderly.instances inRange id inst' found
    inRange'.mono (s.extends_addInstance inst).toRetains

theorem Orderly.change (orderly : s.Orderly) (change : s.Change s') : s'.Orderly := by
  refine orderly.retain change.retains change.instances ?_
  cases change with
  | writeGlobal found same _ =>
      refine forall_modify orderly.globals fun g found' _ => ?_
      cases found.symm.trans found'
      exact same
  | _ => exact orderly.globals

theorem Orderly.evolve (orderly : s.Orderly) (evolves : s.Evolves s') : s'.Orderly :=
  evolves.keeps (fun _ _ change orderly => orderly.change change) orderly

theorem Orderly.addFunc (orderly : s.Orderly) (f : FuncInst) : (s.addFunc f).2.Orderly :=
  orderly.retain (s.retains_addFunc f) rfl orderly.globals

theorem Orderly.addTable (orderly : s.Orderly) (t : TableType) : (s.addTable t).2.Orderly :=
  orderly.retain (s.retains_addTable t) rfl orderly.globals

theorem Orderly.addMemory (orderly : s.Orderly) (t : MemoryType) : (s.addMemory t).2.Orderly :=
  orderly.retain (s.retains_addMemory t) rfl orderly.globals

theorem Orderly.addGlobal (orderly : s.Orderly) {t : GlobalType} {v : Value}
    (typed : v.type = t.type) : (s.addGlobal t v).2.Orderly :=
  orderly.retain (s.retains_addGlobal t v) rfl (forall_push orderly.globals typed)

/-- What is put behind a list of the store has a place in the list that it makes. -/
theorem lt_size_push {α : Type} (items : Array α) (a : α) : items.size < (items.push a).size := by
  rw [Array.size_push]
  exact Nat.lt_succ_self _

theorem Orderly.place (orderly : s.Orderly) (id : InstanceId) {e : Extern}
    (there : e.addr < s.count e.kind) : (s.place id e).Orderly :=
  orderly.modifyInstance fun _ _ inRange => inRange.addAddress there

theorem Orderly.add {m : Module} {id : InstanceId} (orderly : s.Orderly)
    (addition : s.Addition m id s') : s'.Orderly := by
  cases addition with
  | func _ _ _ => exact (orderly.addFunc _).place id (lt_size_push s.funcs _)
  | table _ => exact (orderly.addTable _).place id (lt_size_push s.tables _)
  | memory _ => exact (orderly.addMemory _).place id (lt_size_push s.memories _)
  | global _ _ _ typed => exact (orderly.addGlobal typed).place id (lt_size_push s.globals _)
  | @elem e inst refs _ _ _ =>
      have added : (s.addElem e.type refs).2.Orderly :=
        orderly.retain (s.retains_addElem _ _) rfl orderly.globals
      exact added.modifyInstance fun _ _ inRange => inRange.pushElem (lt_size_push s.elems _)
  | @data d _ =>
      have added : (s.addData d.init).2.Orderly :=
        orderly.retain (s.retains_addData _) rfl orderly.globals
      exact added.modifyInstance fun _ _ inRange => inRange.pushData (lt_size_push s.datas _)
  | @«export» e inst addr _ found there =>
      refine orderly.modifyInstance fun inst' found' inRange => inRange.addExport e.name ?_
      cases found.symm.trans found'
      exact inRange.addresses e.kind addr (Array.mem_of_getElem? there)

end Store

/-! ## Operations -/

/-- A linker's names stay below a bound when the one that is given is below it. -/
theorem Linker.named_register {l : Linker} {id bound : Nat}
    (named : ∀ entry ∈ l.registry, entry.2 < bound) (name : String) (there : id < bound) :
    ∀ entry ∈ (l.register name id).registry, entry.2 < bound := by
  intro entry mem
  rcases List.mem_append.mp mem with old | new
  · exact named entry (List.mem_filter.mp old).1
  · cases List.mem_singleton.mp new
    exact there

namespace Link

variable {l : Linker}

/-- What holds of a store with the fresh instance of a module, and is kept by additions and
by changes of running code, is left behind by an instantiation, however it ends. -/
theorem instantiate_keeps {P : Store → Prop} {m : Module} (fuel : Nat) (name : String)
    (before : P l.machine.store)
    (fresh : ∀ externs, l.resolve m = .ok externs →
      P (l.machine.store.addInstance (.fresh m name externs)).2)
    (add : ∀ t t', P t → t.Addition m l.machine.store.instances.size t' → P t')
    (evolve : ∀ t t', P t → t.Evolves t' → P t') :
    Ends (instantiate fuel m name) l (fun _ l' => P l'.machine.store)
      fun _ l' => P l'.machine.store := by
  have made : ∀ {externs stage l'}, l.resolve m = .ok externs →
      Reached l m (.fresh m name externs) stage l' → P l'.machine.store :=
    fun resolved reached => reached.made.keeps (fresh _ resolved) add evolve
  refine Ends.mono (instantiate_course fuel m name l) ?_ ?_
  · rintro id l' ⟨externs, inst, l₁, l₂, resolved, reached, -, started, -, rfl⟩
    have after : P l₂.machine.store := by
      cases started with
      | none _ => exact made resolved reached
      | @returned index addr results machine _ _ ran =>
          exact evolve _ _ (made resolved reached)
            ((Run.invoke_evolves fuel addr [] l₁.machine).good ran)
    split
    · exact after
    · exact after
  · intro stop l' stopped
    cases stopped with
    | unresolved _ => exact before
    | hindered resolved hindered =>
        obtain ⟨stage, reached⟩ := hindered.exists_reached
        exact made resolved reached
    | @crashed externs inst _ l₁ _ resolved reached _ crashed =>
        cases crashed with
        | @intro index addr stop machine _ _ ran =>
            exact evolve _ _ (made resolved reached)
              ((Run.invoke_evolves fuel addr [] l₁.machine).bad ran).1

/-- An instantiation that ends well gives the new instance its name, and no other changes the
names. -/
theorem instantiate_names (fuel : Nat) (m : Module) (name : String) (l : Linker) :
    Ends (instantiate fuel m name) l
      (fun id l' => id < l'.machine.store.instances.size ∧
        l'.registry = if name ≠ "" then (l.register name id).registry else l.registry)
      fun _ l' => l'.registry = l.registry := by
  refine Ends.mono (instantiate_course fuel m name l) ?_ ?_
  · rintro id l' ⟨externs, inst, l₁, l₂, -, reached, found, started, -, rfl⟩
    have same : l₁.registry = l.registry := by rw [reached.same]; rfl
    have after : l₂.registry = l.registry ∧
        l₂.machine.store.instances = l₁.machine.store.instances := by
      cases started with
      | none _ => exact ⟨same, rfl⟩
      | @returned index addr results machine _ _ ran =>
          have evolves := (Run.invoke_evolves fuel addr [] l₁.machine).good ran
          exact ⟨same, evolves.instances⟩
    have there : id < l₂.machine.store.instances.size := by
      rw [after.2]
      exact (Array.getElem?_eq_some_iff.mp found).1
    split
    · refine ⟨there, ?_⟩
      unfold Linker.register
      rw [after.1]
    · exact ⟨there, after.1⟩
  · intro stop l' stopped
    cases stopped with
    | unresolved _ => rfl
    | hindered _ hindered =>
        obtain ⟨stage, reached⟩ := hindered.exists_reached
        rw [reached.same]
        rfl
    | crashed _ reached _ crashed =>
        cases crashed with
        | intro _ _ _ =>
            show Linker.registry _ = _
            rw [reached.same]
            rfl

/-! ## Modules of the embedder -/

/-- A definition of the embedder is added behind what is there. -/
theorem addHostItem_extends {mod : String} {d : HostDef} (passed : d.check mod = .ok ())
    (orderly : l.machine.store.Orderly) {Bad : LinkStop → Linker → Prop} :
    Ends (addHostItem mod d) l
      (fun found l' => (l.machine.store.Extends l'.machine.store ∧ l'.machine.store.Orderly ∧
        l'.registry = l.registry) ∧ found.addr < l'.machine.store.count found.kind) Bad := by
  obtain ⟨name, item⟩ := d
  cases item with
  | func type behaviour =>
      exact Ends.of_ok rfl ⟨⟨{ Store.Extends.refl _ with toRetains := Store.retains_addFunc _ _ },
        orderly.addFunc _, rfl⟩, Store.lt_size_push l.machine.store.funcs _⟩
  | table type =>
      exact Ends.of_ok rfl ⟨⟨{ Store.Extends.refl _ with toRetains := Store.retains_addTable _ _ },
        orderly.addTable _, rfl⟩, Store.lt_size_push l.machine.store.tables _⟩
  | memory type =>
      exact Ends.of_ok rfl ⟨⟨{ Store.Extends.refl _ with toRetains := Store.retains_addMemory _ _ },
        orderly.addMemory _, rfl⟩, Store.lt_size_push l.machine.store.memories _⟩
  | global type value =>
      obtain ⟨v, rfl, is⟩ := exists_value_of_check passed
      exact Ends.of_ok rfl ⟨⟨{ Store.Extends.refl _ with toRetains := Store.retains_addGlobal _ _ _ },
        orderly.addGlobal is, rfl⟩, Store.lt_size_push l.machine.store.globals _⟩

/-- Making a module of the embedder extends the store and keeps everything in order, also
when a definition is refused. -/
theorem hostModule_extends (mod : String) (defs : List HostDef) (orderly : l.Orderly) :
    Ends (hostModule mod defs) l
      (fun _ l' => l.machine.store.Extends l'.machine.store ∧ l'.Orderly)
      fun _ l' => l.machine.store.Extends l'.machine.store ∧ l'.Orderly := by
  unfold hostModule
  cases passed : defs.forM (HostDef.check mod) with
  | error e => exact Ends.stop rfl ⟨.refl _, orderly⟩
  | ok u =>
      apply Ends.step rfl
      have checked := Module.forM_eq_ok passed
      refine Ends.bind (Ends.foldlM_with (fun inst l' =>
        (l.machine.store.Extends l'.machine.store ∧ l'.machine.store.Orderly ∧
          l'.registry = l.registry) ∧ inst.InRange l'.machine.store)
        ⟨⟨.refl _, orderly.store, rfl⟩, ModuleInstance.inRange_empty _ _ _⟩ ?_) ?_
      · rintro d mem inst l₁ ⟨⟨ext, orderly, same⟩, inRange⟩
        refine Ends.bind (addHostItem_extends (checked d mem) orderly) ?_
        rintro found l₂ ⟨⟨ext', orderly, same'⟩, there⟩
        refine Ends.pure ⟨⟨ext.trans ext', orderly, same'.trans same⟩, ?_⟩
        exact (((inRange.mono ext'.toRetains).withTypes _).addAddress there).addExport d.name there
      · rintro inst l₁ ⟨⟨ext, orderly', same⟩, inRange⟩
        refine Ends.step rfl (Ends.of_ok rfl ?_)
        refine ⟨ext.trans (l₁.machine.store.extends_addInstance inst),
          orderly'.addInstance inRange, ?_⟩
        have kept : ∀ entry ∈ l₁.registry, entry.2 < l₁.machine.store.instances.size :=
          fun entry mem => Nat.lt_of_lt_of_le (orderly.registry entry (same ▸ mem))
            ext.instances.size_le
        have there := Store.lt_size_push l₁.machine.store.instances inst
        exact Linker.named_register (fun entry mem => Nat.lt_trans (kept entry mem) there) mod there

end Link

/-! ## The operations -/

/-- What imports are bound to is there. -/
theorem Linker.Orderly.bound {l : Linker} {m : Module} {externs : List Extern}
    (orderly : l.Orderly) (resolved : l.resolve m = .ok externs) :
    ∀ e ∈ externs, e.addr < l.machine.store.count e.kind := by
  intro e mem
  obtain ⟨id, inst, name, -, held, exported⟩ := exported_of_resolve resolved mem
  exact (orderly.store.instances id inst held).exports (name, e) exported

/-- What an embedder does to a linker and its store in one go. Any of it may fail, and may be
cut off for want of fuel; what was done by then counts. Modules and definitions are those
that the embedder accepts. Several executors and several linkers may share a store, and an
instance may get another name. -/
inductive Linker.Operation (Accepted : Module → Prop) (Offered : HostDef → Prop) (l : Linker) :
    Linker → Prop
  | hostModule {mod : String} {defs : List HostDef} (offered : ∀ d ∈ defs, Offered d) :
      Operation Accepted Offered l (after (Link.hostModule mod defs) l)
  | instantiate {fuel : Nat} {m : Module} {name : String} (accepted : Accepted m) :
      Operation Accepted Offered l (after (Link.instantiate fuel m name) l)
  | invoke {fuel : Nat} {addr : Addr} {args : List (Option Value)} :
      Operation Accepted Offered l
        { l with machine := after (Run.invoke fuel addr args) l.machine }
  | write {view : MemoryView} {offset : UInt32} {bytes : List UInt8} {s : Store}
      (written : view.write l.machine.store offset bytes = .ok s) :
      Operation Accepted Offered l (l.withStore s)
  | grow {view : MemoryView} {count : UInt32} {old : Nat} {s : Store}
      (grown : view.grow l.machine.store count = some (old, s)) :
      Operation Accepted Offered l (l.withStore s)
  | share {l' : Linker} (same : l'.machine.store = l.machine.store)
      (named : ∀ entry ∈ l'.registry, entry.2 < l.machine.store.instances.size) :
      Operation Accepted Offered l l'

namespace Linker

variable {l l' : Linker}

theorem Orderly.of_store (orderly : l.Orderly) (ext : l.machine.store.Extends l'.machine.store)
    (orderly' : l'.machine.store.Orderly) (same : l'.registry = l.registry) : l'.Orderly := by
  refine ⟨orderly', fun entry mem => ?_⟩
  rw [same] at mem
  exact Nat.lt_of_lt_of_le (orderly.registry entry mem) ext.instances.size_le

/-- Every operation extends the store and keeps everything in order. -/
theorem Orderly.operation {Accepted : Module → Prop} {Offered : HostDef → Prop}
    (orderly : l.Orderly) (operation : l.Operation Accepted Offered l') :
    l.machine.store.Extends l'.machine.store ∧ l'.Orderly := by
  have evolved : ∀ {l' : Linker}, l.machine.store.Evolves l'.machine.store →
      l'.registry = l.registry → l.machine.store.Extends l'.machine.store ∧ l'.Orderly := by
    intro l' evolves same
    have ext := (Store.Extends.refl l.machine.store).evolve evolves
    exact ⟨ext, orderly.of_store ext (orderly.store.evolve evolves) same⟩
  cases operation with
  | @hostModule mod defs _ => exact (Link.hostModule_extends mod defs orderly).after
  | @instantiate fuel m name _ =>
      have kept := Link.instantiate_keeps fuel name
        (P := fun s => l.machine.store.Extends s ∧ s.Orderly) (m := m) ⟨.refl _, orderly.store⟩
        (fun externs resolved => ⟨l.machine.store.extends_addInstance _,
          orderly.store.addInstance (ModuleInstance.inRange_fresh (orderly.bound resolved))⟩)
        (fun _ _ before addition => ⟨before.1.add addition, before.2.add addition⟩)
        fun _ _ before evolves => ⟨before.1.evolve evolves, before.2.evolve evolves⟩
      have ends : Ends (Link.instantiate fuel m name) l
          (fun _ l' => l.machine.store.Extends l'.machine.store ∧ l'.Orderly)
          fun _ l' => l.machine.store.Extends l'.machine.store ∧ l'.Orderly := by
        refine Ends.mono (kept.both (Link.instantiate_names fuel m name l)) ?_ ?_
        · rintro id l' ⟨⟨ext, orderly'⟩, there, named⟩
          have kept : ∀ entry ∈ l.registry, entry.2 < l'.machine.store.instances.size :=
            fun entry mem => Nat.lt_of_lt_of_le (orderly.registry entry mem) ext.instances.size_le
          refine ⟨ext, orderly', fun entry mem => ?_⟩
          rw [named] at mem
          split at mem
          · exact named_register kept name there entry mem
          · exact kept entry mem
        · rintro stop l' ⟨⟨ext, orderly'⟩, same⟩
          exact ⟨ext, orderly.of_store ext orderly' same⟩
      exact ends.after
  | @invoke fuel addr args =>
      have ends := Ends.mono (Run.invoke_evolves fuel addr args l.machine) (fun _ _ => id)
        fun _ _ stopped => stopped.1
      exact evolved ends.after rfl
  | @write view offset bytes s written => exact evolved (.of_viewed (MemoryView.viewed_of_write written)) rfl
  | @grow view count old s grown => exact evolved (.of_viewed (MemoryView.viewed_of_grow grown)) rfl
  | share same named =>
      have ext : l.machine.store.Extends l'.machine.store := same ▸ .refl _
      exact ⟨ext, same ▸ orderly.store, same ▸ named⟩

/-- An empty linker has nothing that could be out of order. -/
theorem orderly_of_empty (empty : l.machine.store = {}) (unnamed : l.registry = []) :
    l.Orderly where
  store := empty ▸ Store.orderly_empty
  registry entry mem := by
    rw [unnamed] at mem
    cases mem

/-- What was in order before operations is in order behind them. -/
theorem Orderly.operations {Accepted : Module → Prop} {Offered : HostDef → Prop}
    (orderly : l.Orderly)
    (operations : Relation.ReflTransGen (Operation Accepted Offered) l l') :
    l.machine.store.Extends l'.machine.store ∧ l'.Orderly := by
  induction operations with
  | refl => exact ⟨.refl _, orderly⟩
  | tail _ operation ih =>
      obtain ⟨ext, orderly⟩ := ih
      obtain ⟨ext', orderly⟩ := orderly.operation operation
      exact ⟨ext.trans ext', orderly⟩

/-- The store only extends. From an empty store on, whatever modules are instantiated and
whatever an embedder defines, every operation leaves each address good: functions and
instances are as they were, tables, memories and globals have their types and are at least
as large, immutable globals have their values, and segments are as they were or empty. All
globals hold values of their types, and what instances hold and export is there. -/
theorem Operation.extends_store {start l l' : Linker} (empty : start.machine.store = {})
    (unnamed : start.registry = [])
    (before : Relation.ReflTransGen (Operation (fun _ => True) fun _ => True) start l)
    (operation : l.Operation (fun _ => True) (fun _ => True) l') :
    l.machine.store.Extends l'.machine.store ∧ l'.Orderly :=
  ((orderly_of_empty empty unnamed).operations before).2.operation operation

/-- A linker in which the embedder has defined a global. -/
def answerLinker : Linker :=
  after (Link.hostModule "env" [⟨"answer", .global ⟨.i32, false⟩ (some (.i32 42))⟩])
    (Embedding.new {}).linker

/-- A module whose start function traps. -/
def trappingModule : Module :=
  { types := [⟨[], []⟩]
    funcs := [0]
    code := [⟨[], [.plain Opcode.unreachable none]⟩]
    start := some 0 }

/-- An instantiation that fails at its last stage leaves the global alone. -/
theorem extends_store_trapping :
    answerLinker.machine.store.Extends
        (after (Link.instantiate 20 trappingModule "late") answerLinker).machine.store ∧
      (after (Link.instantiate 20 trappingModule "late") answerLinker).Orderly :=
  Operation.extends_store rfl rfl (.single (.hostModule fun _ _ => trivial)) (.instantiate trivial)

end Linker

end WasmMachine
