/-
# Allocating a module

While the definitions of a module are added to a store, one new instance serves the part
of the module's context that has been added so far.  Adding a definition extends that
part by what the checker knows of it, and of a checked module nothing fails to be added.
-/

import WasmMachine.Link.Instantiate
import WasmMachine.Proofs.Safety.Checked
import WasmMachine.Proofs.Safety.Constant
import WasmMachine.Proofs.Safety.Growth

namespace WasmMachine

open Typing

namespace Store

/-! ## The new instance -/

/-- The instance at a place of the store serves a context. -/
def Serving (id : InstanceId) (ctx : Context) (s : Store) : Prop :=
  ∃ inst, s.instances[id]? = some inst ∧ s.shape.Serves inst ctx

namespace Serving

variable {id : InstanceId} {ctx ctx' : Context} {s s' : Store}

/-- A new instance has its place behind the others. -/
theorem of_addInstance {inst : ModuleInstance} (serves : s.shape.Serves inst ctx) :
    (s.addInstance inst).2.Serving s.shape.instances.length ctx := by
  refine ⟨inst, ?_, serves.mono (within_addInstance inst)⟩
  simp [addInstance, shape]

/-- The shape of the store shows the instance. -/
theorem home (serving : s.Serving id ctx) :
    ∃ inst, s.shape.instances[id]? = some inst ∧ s.shape.Serves inst ctx := by
  obtain ⟨inst, found, serves⟩ := serving
  refine ⟨inst.spaces, ?_, serves.types, serves.funcs, serves.tables, serves.memories,
    serves.globals, serves.elems, serves.datas⟩
  simp [shape, found]

/-- An instance that the shape of the store shows is there. -/
theorem of_home (home : ∃ inst, s.shape.instances[id]? = some inst ∧ s.shape.Serves inst ctx) :
    s.Serving id ctx := by
  obtain ⟨spaces, there, serves⟩ := home
  obtain ⟨inst, found, rfl⟩ := exists_instance there
  exact ⟨inst, found, serves.types, serves.funcs, serves.tables, serves.memories, serves.globals,
    serves.elems, serves.datas⟩

/-- The instance serves another context as well. -/
theorem imp (serving : s.Serving id ctx)
    (serves : ∀ inst, s.shape.Serves inst ctx → s.shape.Serves inst ctx') :
    s.Serving id ctx' := by
  obtain ⟨inst, found, served⟩ := serving
  exact ⟨inst, found, serves inst served⟩

/-- Something was added to the store and is then given a place in the instance. -/
theorem place {f : ModuleInstance → ModuleInstance} (serving : s.Serving id ctx)
    (within : s.shape.Within s'.shape) (same : s'.instances = s.instances)
    (serves : ∀ inst, s'.shape.Serves inst ctx → s'.shape.Serves (f inst) ctx') :
    (s'.modifyInstance id f).Serving id ctx' := by
  obtain ⟨inst, found, served⟩ := serving
  have served' := serves inst (served.mono within)
  refine ⟨f inst, ?_, served'.types, served'.funcs, served'.tables, served'.memories,
    served'.globals, served'.elems, served'.datas⟩
  simp [modifyInstance, Array.getElem?_modify, same, found]

theorem addFunc (serving : s.Serving id ctx) (f : FuncInst) :
    ((s.addFunc f).2.modifyInstance id (·.addAddress ⟨.func, s.funcs.size⟩)).Serving id
      { ctx with funcs := ctx.funcs ++ [f.type] } := by
  apply serving.place (within_addFunc _) rfl
  intro inst serves
  refine { serves with funcs := serves.funcs.push ?_ }
  rw [shape_addFunc]
  simp [shape]

theorem addTable (serving : s.Serving id ctx) (t : TableType) :
    ((s.addTable t).2.modifyInstance id (·.addAddress ⟨.table, s.tables.size⟩)).Serving id
      { ctx with tables := ctx.tables ++ [t] } := by
  apply serving.place (within_addTable _) rfl
  intro inst serves
  refine { serves with tables := ?_ }
  rw [List.map_append]
  refine serves.tables.push ?_
  rw [shape_addTable]
  simp [shape]

theorem addMemory (serving : s.Serving id ctx) (t : MemoryType) :
    ((s.addMemory t).2.modifyInstance id (·.addAddress ⟨.memory, s.memories.size⟩)).Serving id
      { ctx with memories := ctx.memories ++ [t] } := by
  apply serving.place (within_addMemory _) rfl
  intro inst serves
  refine { serves with memories := ?_ }
  rw [List.map_append]
  refine serves.memories.push ?_
  rw [shape_addMemory]
  simp [shape]

theorem addGlobal (serving : s.Serving id ctx) (t : GlobalType) (v : Value) :
    ((s.addGlobal t v).2.modifyInstance id (·.addAddress ⟨.global, s.globals.size⟩)).Serving id
      { ctx with globals := ctx.globals ++ [t] } := by
  apply serving.place (within_addGlobal _ _) rfl
  intro inst serves
  refine { serves with globals := serves.globals.push ?_ }
  rw [shape_addGlobal]
  simp [shape]

theorem addElem (serving : s.Serving id ctx) (t : ValType) (refs : List Ref) :
    ((s.addElem t refs).2.modifyInstance id
      fun inst => { inst with elems := inst.elems.push s.elems.size }).Serving id
        { ctx with elements := ctx.elements ++ [t] } := by
  apply serving.place (within_addElem _ _) rfl
  intro inst serves
  refine { serves with elems := serves.elems.push ?_ }
  rw [shape_addElem]
  simp [shape]

theorem addData (serving : s.Serving id ctx) (data : List UInt8) :
    ((s.addData data).2.modifyInstance id
      fun inst => { inst with datas := inst.datas.push s.datas.size }).Serving id
        { ctx with dataCount := ctx.dataCount + 1 } := by
  apply serving.place (within_addData _) rfl
  intro inst serves
  refine { serves with datas := ?_ }
  rw [List.replicate_succ']
  refine serves.datas.push ?_
  rw [shape_addData]
  simp [shape]

end Serving

/-! ## What is kept up -/

/-- What the linker keeps up while it adds the definitions of a module: `Inv codes ctx` is
meant to hold once the code `codes` has been added and the instance at `id` serves `ctx`.
It looks at no more of a context than what there is to serve, and it goes on to hold
whatever is added of a checked module. -/
structure Upkeep (id : InstanceId) (Inv : List Code → Context → Store → Prop) : Prop where
  serving : ∀ {codes ctx s}, Inv codes ctx s → s.Serving id ctx
  serve : ∀ {codes ctx ctx' s}, Inv codes ctx s →
    (∀ inst, s.shape.Serves inst ctx → s.shape.Serves inst ctx') → Inv codes ctx' s
  has : ∀ {codes ctx s type v}, Inv codes ctx s → s.Gives type v → ∃ n, v.Has n type
  addFunc : ∀ {codes ctx s}, Inv codes ctx s → ∀ f : Code,
    Inv (codes ++ [f]) { ctx with funcs := ctx.funcs ++ [f.type] }
      ((s.addFunc (.code f)).2.modifyInstance id (·.addAddress ⟨.func, s.funcs.size⟩))
  addTable : ∀ {codes ctx s}, Inv codes ctx s → ∀ t : TableType,
    Inv codes { ctx with tables := ctx.tables ++ [t] }
      ((s.addTable t).2.modifyInstance id (·.addAddress ⟨.table, s.tables.size⟩))
  addMemory : ∀ {codes ctx s}, Inv codes ctx s → ∀ t : MemoryType,
    Inv codes { ctx with memories := ctx.memories ++ [t] }
      ((s.addMemory t).2.modifyInstance id (·.addAddress ⟨.memory, s.memories.size⟩))
  addGlobal : ∀ {codes ctx s} {t : GlobalType} {v}, Inv codes ctx s → s.Gives t.type v →
    Inv codes { ctx with globals := ctx.globals ++ [t] }
      ((s.addGlobal t v).2.modifyInstance id (·.addAddress ⟨.global, s.globals.size⟩))
  addElem : ∀ {codes ctx s t refs}, Inv codes ctx s → (∀ r ∈ refs, s.Gives t (.ref r)) →
    Inv codes { ctx with elements := ctx.elements ++ [t] }
      ((s.addElem t refs).2.modifyInstance id
        fun inst => { inst with elems := inst.elems.push s.elems.size })
  addData : ∀ {codes ctx s}, Inv codes ctx s → ∀ data : List UInt8,
    Inv codes { ctx with dataCount := ctx.dataCount + 1 }
      ((s.addData data).2.modifyInstance id
        fun inst => { inst with datas := inst.datas.push s.datas.size })

/-- To a store of shape `σ` the code `codes` has been added, and behind the instances of
`σ` an instance that serves the context so far. -/
structure Growing (σ : Shape) (codes : List Code) (ctx : Context) (s : Store) : Prop where
  within : σ.Within s.shape
  funcs : s.shape.funcs = σ.funcs ++ codes.map .code
  fresh : ∃ inst, s.instances[σ.instances.length]? = some inst ∧ s.shape.Serves inst ctx
  typed : s.Typed s.shape.size

namespace Growing

variable {σ : Shape} {codes codes' : List Code} {ctx ctx' : Context} {s s' : Store}

theorem serving (growing : s.Growing σ codes ctx) : s.Serving σ.instances.length ctx :=
  growing.fresh

/-- The new instance has its place behind the others. -/
theorem home (growing : s.Growing σ codes ctx) :
    ∃ inst, s.shape.instances[σ.instances.length]? = some inst ∧ s.shape.Serves inst ctx :=
  growing.serving.home

/-- The new instance serves another context as well. -/
theorem serve (growing : s.Growing σ codes ctx)
    (serves : ∀ inst, s.shape.Serves inst ctx → s.shape.Serves inst ctx') :
    s.Growing σ codes ctx' :=
  { growing with fresh := growing.serving.imp serves }

/-- A change of the new instance leaves the old ones as they are. -/
private theorem prefix_modify {items : List ModuleInstance} {instances : Array ModuleInstance}
    {f : ModuleInstance → ModuleInstance} (within : items <+: instances.toList.map (·.spaces)) :
    items <+: (instances.modify items.length f).toList.map (·.spaces) := by
  rw [List.prefix_iff_getElem?] at within ⊢
  intro i inside
  rw [← within i inside]
  simp only [List.getElem?_map, Array.getElem?_toList, Array.getElem?_modify]
  rw [if_neg (Nat.ne_of_gt inside)]

/-- A store with a new instance. -/
theorem of_addInstance (typed : s.Typed s.shape.size) {inst : ModuleInstance}
    (serves : s.shape.Serves inst ctx) : (s.addInstance inst).2.Growing s.shape [] ctx where
  within := within_addInstance inst
  funcs := by
    rw [shape_addInstance, List.map_nil, List.append_nil]
  fresh := Serving.of_addInstance serves
  typed := typed.addInstance inst

/-- Something was added to the store and is then given a place in the new instance. -/
theorem place {f : ModuleInstance → ModuleInstance} (growing : s.Growing σ codes ctx)
    (within : s.shape.Within s'.shape) (funcs : s'.shape.funcs = σ.funcs ++ codes'.map .code)
    (typed : s'.Typed s'.shape.size)
    (serving : (s'.modifyInstance σ.instances.length f).Serving σ.instances.length ctx') :
    (s'.modifyInstance σ.instances.length f).Growing σ codes' ctx' where
  within := { growing.within.trans within with
    instances := prefix_modify (growing.within.trans within).instances }
  funcs := funcs
  fresh := serving
  typed := ⟨typed.tables, typed.globals, typed.elems, typed.kept⟩

/-- A store that grows keeps everything of the type of its place. -/
theorem upkeep (σ : Shape) : Upkeep σ.instances.length (Growing σ) where
  serving growing := growing.serving
  serve growing serves := growing.serve serves
  has growing gives := ⟨_, gives.has growing.typed⟩
  addFunc growing f := by
    refine growing.place (within_addFunc _) ?_ ?_ (growing.serving.addFunc _)
    · rw [shape_addFunc]
      simp [growing.funcs]
    · refine (growing.typed.addFunc _).mono ?_
      exact (within_addFunc _).funcs.length_le
  addTable growing t :=
    growing.place (within_addTable _) growing.funcs (growing.typed.addTable t)
      (growing.serving.addTable t)
  addMemory growing t :=
    growing.place (within_addMemory _) growing.funcs (growing.typed.addMemory t)
      (growing.serving.addMemory t)
  addGlobal growing gives :=
    growing.place (within_addGlobal _ _) growing.funcs
      (growing.typed.addGlobal (gives.has growing.typed)) (growing.serving.addGlobal _ _)
  addElem growing gives :=
    growing.place (within_addElem _ _) growing.funcs
      (growing.typed.addElem fun r mem => (gives r mem).has growing.typed)
      (growing.serving.addElem _ _)
  addData growing data :=
    growing.place (within_addData _) growing.funcs (growing.typed.addData data)
      (growing.serving.addData data)

end Growing

end Store

/-! ## Imports -/

/-- The part of a module's context that its imports make up. -/
def Typing.Context.ofImports (types : List FuncType) (imports : List Import) : Context where
  types := types
  funcs :=
    ((imports.filter fun i => i.desc.kind == .func).map (·.desc.typeIndex)).map (typeAt types)
  tables := imports.filterMap fun i => if i.desc.kind == .table then i.desc.table else none
  memories := imports.filterMap fun i => if i.desc.kind == .memory then i.desc.memory else none
  globals := imports.filterMap fun i => if i.desc.kind == .global then i.desc.global else none

namespace Store

variable {s : Store} {types : List FuncType} {want : ImportDesc} {found : Extern}

theorem func_of_checkImport (kind : want.kind = .func)
    (passed : s.checkImport types want found = .ok ()) :
    ∃ type, types[want.typeIndex.toNat]? = some type ∧
      (s.shape.funcs.map (·.type))[found.addr]? = some type := by
  simp only [checkImport, kind, ExternKind.func] at passed
  split at passed
  · cases passed
  · next type known =>
      split at passed
      · cases passed
      · next f held =>
          split at passed
          · next same => exact ⟨type, known, by simp [shape, held, same]⟩
          · cases passed

theorem fits_of_checkImport_table (kind : want.kind = .table)
    (passed : s.checkImport types want found = .ok ()) :
    ∃ t type, s.tables[found.addr]? = some t ∧ want.table = some type ∧
      t.type.elem = type.elem ∧ (tableLimits t).fits type.limits = true := by
  simp only [checkImport, kind, ExternKind.table] at passed
  split at passed
  · cases passed
  · cases passed
  · next t type held wanted =>
      split at passed
      · cases passed
      · next same =>
          split at passed
          · next fits => exact ⟨t, type, held, wanted, not_not.mp same, fits⟩
          · cases passed

theorem fits_of_checkImport_memory (kind : want.kind = .memory)
    (passed : s.checkImport types want found = .ok ()) :
    ∃ m type, s.memories[found.addr]? = some m ∧ want.memory = some type ∧
      (memoryLimits m).fits type.limits = true := by
  simp only [checkImport, kind, ExternKind.memory] at passed
  split at passed
  · cases passed
  · cases passed
  · next m type held wanted =>
      split at passed
      · next fits => exact ⟨m, type, held, wanted, fits⟩
      · cases passed

theorem table_of_checkImport (kind : want.kind = .table)
    (passed : s.checkImport types want found = .ok ()) :
    ∃ type, want.table = some type ∧ s.shape.tables[found.addr]? = some type.elem := by
  obtain ⟨t, type, held, wanted, same, -⟩ := fits_of_checkImport_table kind passed
  exact ⟨type, wanted, by simp [shape, held, same]⟩

theorem memory_of_checkImport (kind : want.kind = .memory)
    (passed : s.checkImport types want found = .ok ()) :
    ∃ type, want.memory = some type ∧ s.shape.memories[found.addr]? = some () := by
  obtain ⟨m, type, held, wanted, -⟩ := fits_of_checkImport_memory kind passed
  refine ⟨type, wanted, ?_⟩
  show (s.memories.toList.map fun _ => ())[found.addr]? = _
  rw [List.getElem?_map, Array.getElem?_toList, held]
  rfl

theorem global_of_checkImport (kind : want.kind = .global)
    (passed : s.checkImport types want found = .ok ()) :
    ∃ type, want.global = some type ∧ s.shape.globals[found.addr]? = some type := by
  simp only [checkImport, kind, ExternKind.global] at passed
  split at passed
  · cases passed
  · cases passed
  · next g type held wanted =>
      split at passed
      · next same => exact ⟨type, wanted, by simp [shape, held, same]⟩
      · cases passed

end Store

namespace Linker

variable {l : Linker} {types : List FuncType} {inst : ModuleInstance}

/-- An import that resolves is bound to something of its kind that is what the import
asks for. -/
theorem checkImport_of_resolveImport {imp : Import} {found : Extern}
    (resolved : l.resolveImport types imp = .ok found) :
    found.kind = imp.desc.kind ∧ l.machine.store.checkImport types imp.desc found = .ok () := by
  unfold resolveImport at resolved
  split at resolved
  · cases resolved
  · split at resolved
    · cases resolved
    · split at resolved
      · cases resolved
      · next same =>
          obtain ⟨_, passed, returned⟩ := bind_eq_ok_iff.mp resolved
          cases returned
          exact ⟨not_not.mp same, passed⟩

/-- The address of an import extends the index space of its kind. -/
theorem serves_addAddress {done : List Import} {imp : Import} {found : Extern}
    (writable : imp.desc.Writable)
    (serves : l.machine.store.shape.Serves inst (.ofImports types done))
    (resolved : l.resolveImport types imp = .ok found) :
    l.machine.store.shape.Serves (inst.addAddress found) (.ofImports types (done ++ [imp])) := by
  obtain ⟨kind, passed⟩ := checkImport_of_resolveImport resolved
  obtain ⟨mod, name, desc⟩ := imp
  obtain ⟨_, addr⟩ := found
  obtain rfl := kind
  cases writable with
  | func index =>
      obtain ⟨type, known, there⟩ := Store.func_of_checkImport rfl passed
      have context : Context.ofImports types (done ++ [⟨mod, name, .func, index, none, none, none⟩])
          = { Context.ofImports types done with
              funcs := (Context.ofImports types done).funcs ++ [type] } := by
        simp +decide [Context.ofImports, typeAt, show types[index.toNat]? = some type from known]
      rw [context]
      exact { serves with funcs := serves.funcs.push there }
  | @table t fine =>
      obtain ⟨type, wanted, there⟩ := Store.table_of_checkImport rfl passed
      cases wanted
      have context : Context.ofImports types (done ++ [⟨mod, name, .table, 0, some t, none, none⟩])
          = { Context.ofImports types done with
              tables := (Context.ofImports types done).tables ++ [t] } := by
        simp +decide [Context.ofImports]
      rw [context]
      refine { serves with tables := ?_ }
      rw [List.map_append]
      exact serves.tables.push there
  | @memory t fine =>
      obtain ⟨type, wanted, there⟩ := Store.memory_of_checkImport rfl passed
      cases wanted
      have context : Context.ofImports types (done ++ [⟨mod, name, .memory, 0, none, some t, none⟩])
          = { Context.ofImports types done with
              memories := (Context.ofImports types done).memories ++ [t] } := by
        simp +decide [Context.ofImports]
      rw [context]
      refine { serves with memories := ?_ }
      rw [List.map_append]
      exact serves.memories.push there
  | @global t fine =>
      obtain ⟨type, wanted, there⟩ := Store.global_of_checkImport rfl passed
      cases wanted
      have context : Context.ofImports types (done ++ [⟨mod, name, .global, 0, none, none, some t⟩])
          = { Context.ofImports types done with
              globals := (Context.ofImports types done).globals ++ [t] } := by
        simp +decide [Context.ofImports]
      rw [context]
      exact { serves with globals := serves.globals.push there }

/-- The addresses of resolved imports lead to what the imports ask for. -/
theorem serves_of_resolve {m : Module} {externs : List Extern} (name : String)
    (writable : ∀ i ∈ m.imports, i.desc.Writable) (resolved : l.resolve m = .ok externs) :
    l.machine.store.shape.Serves
      (externs.foldl .addAddress { name := name, types := m.types })
      (.ofImports m.types m.imports) := by
  suffices general : ∀ (rest done : List Import) (externs : List Extern) (inst : ModuleInstance),
      (∀ i ∈ rest, i.desc.Writable) →
      (rest.mapM fun imp => (l.resolveImport m.types imp).mapError
        (LinkError.importFailed imp.mod imp.name)) = .ok externs →
      l.machine.store.shape.Serves inst (.ofImports m.types done) →
      l.machine.store.shape.Serves (externs.foldl .addAddress inst)
        (.ofImports m.types (done ++ rest)) from
    general m.imports [] externs _ writable resolved ⟨rfl, .nil, .nil, .nil, .nil, .nil, .nil⟩
  intro rest
  induction rest with
  | nil =>
      intro done externs inst _ resolved serves
      cases resolved
      rw [List.append_nil]
      exact serves
  | cons imp rest ih =>
      intro done externs inst writable resolved serves
      rw [List.mapM_cons] at resolved
      obtain ⟨found, first, resolved⟩ := bind_eq_ok_iff.mp resolved
      obtain ⟨others, later, returned⟩ := bind_eq_ok_iff.mp resolved
      cases returned
      have first : l.resolveImport m.types imp = .ok found := by
        cases h : l.resolveImport m.types imp with
        | ok found' =>
            rw [h] at first
            cases first
            rfl
        | error problem =>
            rw [h] at first
            cases first
      have serves := serves_addAddress (writable imp List.mem_cons_self) serves first
      have serves := ih (done ++ [imp]) others _
        (fun i mem => writable i (List.mem_cons_of_mem _ mem)) later serves
      rw [List.append_assoc] at serves
      exact serves

end Linker

end WasmMachine
