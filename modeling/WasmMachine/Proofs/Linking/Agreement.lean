/-
# Three views of the index spaces

A module numbers its functions, tables, memories and globals with the imports in front of
the definitions.  It does so to find the type of a function, the checker does so to make its
context, and the linker does so when it notes addresses in an instance, each in a loop of its
own.  The three agree: an index means the same to all of them, and what is behind it in the
store is of the type that the module and the context give it.

Nothing is asked of the code of the module, nor of the store that it is linked into; the
structural checks are enough.  A module that cannot be linked has no instance, so a stage
that fails has nothing to show.
-/

import WasmMachine.Proofs.Linking.Exports
import WasmMachine.Proofs.Linking.Initialization

namespace WasmMachine

open Typing

/-! ## What serving an instance comes down to -/

/-- An index leads to an address, and the address to what the index space lists. -/
theorem Leads.getElem?_eq {α : Type} {items space : List α} {addrs : Array Addr}
    (leads : Leads items addrs space) (i : Nat) :
    space[i]? = (addrs[i]?).bind fun addr => items[addr]? := by
  cases known : space[i]? with
  | some a =>
      obtain ⟨addr, place, there⟩ := leads.lookup known
      rw [place, Option.bind_some, there]
  | none =>
      have beyond : addrs.size ≤ i := by
        rw [← Array.length_toList, leads.length_eq]
        exact List.getElem?_eq_none_iff.mp known
      rw [Array.getElem?_eq_none beyond, Option.bind_none]

/-- The module `m`, the checker's context `ctx` and an instance in a store have the same index
spaces. -/
structure Module.Agrees (m : Module) (ctx : Context) (inst : ModuleInstance) (s : Store) :
    Prop where
  funcs : ctx.funcs.length = inst.funcs.size
  tables : ctx.tables.length = inst.tables.size
  memories : ctx.memories.length = inst.memories.size
  globals : ctx.globals.length = inst.globals.size
  elements : ctx.elements.length = inst.elems.size
  datas : ctx.dataCount = inst.datas.size
  /-- The type of a function is the same for the module, the context and the store, and where
  one of them has no function, none has. -/
  funcType : ∀ index : UInt32, m.funcType? index = ctx.funcs[index.toNat]?
  funcInst : ∀ i : Nat,
    ctx.funcs[i]? = ((inst.funcs[i]?).bind fun addr => s.funcs[addr]?).map (·.type)
  globalInst : ∀ i : Nat,
    ctx.globals[i]? = ((inst.globals[i]?).bind fun addr => s.globals[addr]?).map (·.type)
  tableInst : ∀ i : Nat, (ctx.tables[i]?).map (·.elem) =
    ((inst.tables[i]?).bind fun addr => s.tables[addr]?).map (·.type.elem)
  memoryInst : ∀ i < ctx.memories.length,
    ∃ addr memory, inst.memories[i]? = some addr ∧ s.memories[addr]? = some memory
  /-- Each export is bound to the address of its index in the index space of its kind. -/
  exports : ∀ e ∈ m.exports, ∃ addr, (inst.addresses e.kind)[e.index.toNat]? = some addr ∧
    inst.export? e.name = some ⟨e.kind, addr⟩

namespace Store

variable {s s' : Store} {id : InstanceId} {ctx : Context} {inst : ModuleInstance}

theorem getElem?_map_toList {α β : Type} (items : Array α) (f : α → β) (i : Nat) :
    (items.toList.map f)[i]? = (items[i]?).map f := by
  rw [List.getElem?_map, Array.getElem?_toList]

/-- What an instance serves, it agrees with. -/
theorem agrees_of_serves {m : Module} (structured : m.checkStructure = .ok ())
    (serves : s.shape.Serves inst (.ofModule m))
    (placed : ∀ e ∈ m.exports, e.index.toNat < (Context.ofModule m).count e.kind)
    (exporting : inst.Exporting m.exports) : m.Agrees (.ofModule m) inst s where
  funcs := serves.funcs.length_eq.symm
  tables := (serves.size_addresses .table).symm
  memories := (serves.size_addresses .memory).symm
  globals := serves.globals.length_eq.symm
  elements := serves.elems.length_eq.symm
  datas := (serves.datas.length_eq.trans List.length_replicate).symm
  funcType := Module.funcType?_eq_context structured
  funcInst i := by
    rw [serves.funcs.getElem?_eq, Option.map_bind]
    exact congrArg _ (funext fun addr => getElem?_map_toList s.funcs (·.type) addr)
  globalInst i := by
    rw [serves.globals.getElem?_eq, Option.map_bind]
    exact congrArg _ (funext fun addr => getElem?_map_toList s.globals (·.type) addr)
  tableInst i := by
    rw [← List.getElem?_map, serves.tables.getElem?_eq, Option.map_bind]
    exact congrArg _ (funext fun addr => getElem?_map_toList s.tables (·.type.elem) addr)
  memoryInst i inside := by
    have known : ((Context.ofModule m).memories.map fun _ => ())[i]? = some () := by
      rw [List.getElem?_map, List.getElem?_eq_getElem inside]
      rfl
    obtain ⟨addr, place, there⟩ := serves.memories.lookup known
    have there := (getElem?_map_toList s.memories (fun _ => ()) addr).symm.trans there
    obtain ⟨memory, found, -⟩ := Option.map_eq_some_iff.mp there
    exact ⟨addr, memory, place, found⟩
  exports e mem := by
    have inside : e.index.toNat < (inst.addresses e.kind).size := by
      rw [serves.size_addresses]
      exact placed e mem
    have place := Array.getElem?_eq_getElem inside
    exact ⟨_, place, (exporting _ _).mpr ⟨e, mem, rfl, rfl, place⟩⟩

/-- The instance at a place serves a context, and exports nothing so far. -/
structure Tracks (id : InstanceId) (ctx : Context) (s : Store) : Prop where
  serving : s.Serving id ctx
  blank : s.Blank id

end Store

namespace Link

variable {id : InstanceId} {ctx : Context} {l : Linker} {m : Module}

/-! ## Adding definitions -/

theorem addFuncs_tracks (tracks : l.machine.store.Tracks id ctx) :
    Ends (addFuncs id m) l
      (fun _ l' => l'.machine.store.Tracks id
        { ctx with funcs := ctx.funcs ++ m.funcs.map (typeAt m.types) }) fun _ _ => True := by
  unfold addFuncs
  by_cases bodies : m.funcs.length = m.code.length
  · rw [if_neg (not_not.mpr bodies)]
    refine Ends.mono (forEach_ends (fun done l =>
      l.machine.store.Tracks id
        { ctx with funcs := ctx.funcs ++ done.map fun f => typeAt m.types f.1 }) ?_ ?_) ?_
      fun _ _ (refused : True) => refused
    · rw [List.map_nil, List.append_nil]
      exact tracks
    · rintro done ⟨index, body⟩ rest - l tracks
      cases known : m.types[index.toNat]? with
      | none =>
          simp only [known]
          trivial
      | some type =>
          simp only [known]
          have named : typeAt m.types index = type := by rw [typeAt, known, Option.getD_some]
          refine Ends.of_ok rfl ⟨?_, tracks.blank.place _ rfl⟩
          rw [List.map_append, ← List.append_assoc, List.map_singleton, named]
          exact tracks.serving.addFunc (.code ⟨some id, type, body.localTypes, body.body⟩)
    · intro _ l tracks
      have names : m.funcs = (m.funcs.zip m.code).map Prod.fst :=
        (List.map_fst_zip (Nat.le_of_eq bodies)).symm
      rw [names, List.map_map]
      exact tracks
  · rw [if_pos bodies]
    exact Ends.stop rfl trivial

theorem addTablesAndMemories_tracks (tracks : l.machine.store.Tracks id ctx) :
    Ends (addTablesAndMemories id m) l
      (fun _ l' => l'.machine.store.Tracks id
        { ctx with tables := ctx.tables ++ m.tables, memories := ctx.memories ++ m.memories })
      fun _ _ => True := by
  unfold addTablesAndMemories
  refine Ends.bind (Ends.forM (fun done (l : Linker) => l.machine.store.Tracks id
      { ctx with tables := ctx.tables ++ done }) ?_ ?_) fun _ l tracks => ?_
  · rw [List.append_nil]
    exact tracks
  · intro done t rest _ l tracks
    refine Ends.of_ok rfl ⟨?_, tracks.blank.place _ rfl⟩
    rw [← List.append_assoc]
    exact tracks.serving.addTable t
  · refine Ends.forM (fun done (l : Linker) => l.machine.store.Tracks id
      { ctx with tables := ctx.tables ++ m.tables, memories := ctx.memories ++ done }) ?_ ?_
    · rw [List.append_nil]
      exact tracks
    · intro done t rest _ l tracks
      refine Ends.of_ok rfl ⟨?_, tracks.blank.place _ rfl⟩
      rw [← List.append_assoc]
      exact tracks.serving.addMemory t

theorem addGlobals_tracks (tracks : l.machine.store.Tracks id ctx) :
    Ends (addGlobals id m) l
      (fun _ l' => l'.machine.store.Tracks id
        { ctx with globals := ctx.globals ++ m.globals.map (·.type) }) fun _ _ => True := by
  unfold addGlobals
  refine forEach_ends (fun (done : List Global) l => l.machine.store.Tracks id
    { ctx with globals := ctx.globals ++ done.map (·.type) }) ?_ ?_
  · rw [List.map_nil, List.append_nil]
    exact tracks
  · intro done g rest _ l tracks
    obtain ⟨inst, found, -⟩ := tracks.serving
    apply Ends.step rfl
    apply Ends.step (inst_eq found)
    refine Ends.bind (liftConstant_same _) ?_
    rintro v _ rfl
    by_cases typed : v.type = g.type.type
    · rw [if_neg (not_not.mpr typed)]
      refine Ends.of_ok rfl ⟨?_, tracks.blank.place _ rfl⟩
      rw [List.map_append, ← List.append_assoc]
      exact tracks.serving.addGlobal g.type v
    · rw [if_pos typed]
      exact Ends.stop rfl trivial

/-- Finding the references of a segment leaves the linker alone. -/
theorem elementRefs_same (e : Element) :
    Ends (elementRefs id e) l (fun _ l' => l' = l) fun _ _ => True := by
  unfold elementRefs
  split
  · refine Ends.mono (Ends.mapM_forall₂ (R := fun _ _ => True) fun func _ => ?_)
      (fun _ _ found => found.1) fun _ _ (refused : True) => refused
    apply Ends.step rfl
    split
    · exact Ends.pure ⟨rfl, trivial⟩
    · trivial
  · refine Ends.mono (Ends.mapM_forall₂ (R := fun _ _ => True) fun expr _ => ?_)
      (fun _ _ found => found.1) fun _ _ (refused : True) => refused
    apply Ends.step rfl
    apply Ends.step rfl
    refine Ends.bind (liftConstant_same _) ?_
    rintro v _ rfl
    cases v with
    | ref r => exact Ends.pure ⟨rfl, trivial⟩
    | _ => trivial

theorem addSegments_tracks (tracks : l.machine.store.Tracks id ctx) :
    Ends (addSegments id m) l
      (fun _ l' => l'.machine.store.Tracks id
        { ctx with
          elements := ctx.elements ++ m.elements.map (·.type)
          dataCount := ctx.dataCount + m.data.length }) fun _ _ => True := by
  unfold addSegments
  refine Ends.bind (Ends.forM (fun (done : List Element) (l : Linker) =>
      l.machine.store.Tracks id { ctx with elements := ctx.elements ++ done.map (·.type) })
      ?_ ?_) fun _ l tracks => ?_
  · rw [List.map_nil, List.append_nil]
    exact tracks
  · intro done e rest _ l tracks
    refine Ends.bind (elementRefs_same e) ?_
    rintro refs _ rfl
    refine Ends.of_ok rfl ⟨?_, tracks.blank.modify rfl fun _ => rfl⟩
    rw [List.map_append, ← List.append_assoc]
    exact tracks.serving.addElem e.type refs
  · refine Ends.forM (fun (done : List DataSegment) (l : Linker) => l.machine.store.Tracks id
        { ctx with
          elements := ctx.elements ++ m.elements.map (·.type)
          dataCount := ctx.dataCount + done.length }) tracks ?_
    intro done d rest _ l tracks
    refine Ends.of_ok rfl ⟨?_, tracks.blank.modify rfl fun _ => rfl⟩
    rw [List.length_append, ← Nat.add_assoc]
    exact tracks.serving.addData d.init

/-- Binding an export changes nothing behind the indices. -/
theorem bindExports_serves (serving : l.machine.store.Serving id ctx) :
    Ends (bindExports id m) l (fun _ l' => l'.machine.store.Serving id ctx)
      fun _ _ => True := by
  unfold bindExports
  refine Ends.forM (fun _ (l : Linker) => l.machine.store.Serving id ctx) serving ?_
  rintro done e rest - l serving
  apply Ends.step rfl
  split
  · refine Ends.of_ok rfl ?_
    refine serving.place (Shape.Within.refl l.machine.store.shape) rfl fun inst serves => ?_
    exact { serves with }
  · trivial

/-! ## All stages -/

/-- The instance of a module of sound structure, once its definitions and its exports are in
place. -/
theorem prepare_presents {name : String} (imports : ∀ i ∈ m.imports, i.desc.Writable)
    (structured : m.checkStructure = .ok ())
    (counted : (Context.ofModule m).dataCount = m.data.length) :
    Ends (prepare m name) l
      (fun id l' => l'.machine.store.Serving id (.ofModule m) ∧ Presents id m l')
      fun _ _ => True := by
  unfold prepare
  apply Ends.step rfl
  cases resolved : l.resolve m with
  | error e => exact Ends.stop rfl trivial
  | ok externs =>
      apply Ends.step rfl
      have serves := Linker.serves_of_resolve name imports resolved
      apply Ends.step (add_instance _)
      have tracks : (l.machine.store.addInstance (.fresh m name externs)).2.Tracks
          l.machine.store.shape.instances.length (.ofImports m.types m.imports) :=
        ⟨Store.Serving.of_addInstance serves,
          Store.blank_addInstance (ModuleInstance.exports_foldl_addAddress _ externs)⟩
      refine Ends.bind (addFuncs_tracks tracks) fun _ l₁ tracks => ?_
      refine Ends.bind (addTablesAndMemories_tracks tracks) fun _ l₂ tracks => ?_
      refine Ends.bind (addGlobals_tracks tracks) fun _ l₃ tracks => ?_
      refine Ends.bind (addSegments_tracks tracks) fun _ l₄ tracks => ?_
      have serving : l₄.machine.store.Serving l.machine.store.shape.instances.length
          (.ofModule m) := tracks.serving.imp fun inst serves => { serves with
        funcs := funcs_ofModule m ▸ serves.funcs
        datas := by
          rw [counted, ← Nat.zero_add m.data.length]
          exact serves.datas }
      obtain ⟨inst, found, -⟩ := tracks.serving
      have names := Module.nodup_of_checkStructure structured
      have both := (bindExports_serves serving).both
        (bindExports_presents names found (tracks.blank inst found))
      refine Ends.bind (both.mono (fun _ _ => id) fun _ _ _ => trivial) fun _ l₅ done => ?_
      exact Ends.pure done

/-- What an instance serves, it goes on to serve. -/
theorem Stays.serving {l' : Linker} (stays : Stays l l')
    (serving : l.machine.store.Serving id ctx) : l'.machine.store.Serving id ctx := by
  obtain ⟨inst, found, serves⟩ := serving
  exact ⟨inst, stays.instances ▸ found, stays.shape ▸ serves⟩

theorem applySegments_stay (segments : List Segment) :
    Ends (segments.forM (applySegment id)) l (fun _ l' => Stays l l') fun _ _ => True := by
  refine Ends.forM (fun _ l' => Stays l l') ⟨rfl, rfl⟩ ?_
  rintro done segment rest - l' stays
  have each : Ends (applySegment id segment) l' (fun _ l'' => Stays l' l'') fun _ _ => True := by
    cases segment with
    | element i e => exact applyElement_stays
    | data i d => exact applyData_stays
  exact each.mono (fun _ _ later => stays.trans later) fun _ _ _ => trivial

theorem finish_stays (fuel : Nat) (name : String) :
    Ends (finish fuel m name id) l (fun id' l' => id' = id ∧ Stays l l') fun _ _ => True := by
  unfold finish
  refine Ends.bind (runStart_stays fuel) fun _ l' stays => ?_
  split
  · exact Ends.of_ok rfl ⟨rfl, stays.shape, stays.instances⟩
  · exact Ends.of_ok rfl ⟨rfl, stays⟩

/-- The number of data segments that the checker assumes is the actual one. -/
theorem dataCount_of_decode {bytes : List UInt8} (decoded : Module.decode bytes = .ok m) :
    (Context.ofModule m).dataCount = m.data.length := by
  obtain ⟨r, ran⟩ := Decoder.decodeWith_eq_ok_iff.mp decoded
  obtain ⟨read, -, -, -, consistent, -⟩ := Decoder.Yields.module_ true _ _ _ ran
  show (m.dataCount.map (·.toNat)).getD m.data.length = m.data.length
  cases counted : m.dataCount with
  | none => rfl
  | some n => exact consistent.dataCount n counted

/-- The instance that is made of a module of sound structure serves the context of the module
and exports what the module says. -/
theorem instantiate_serves (imports : ∀ i ∈ m.imports, i.desc.Writable)
    (structured : m.checkStructure = .ok ())
    (counted : (Context.ofModule m).dataCount = m.data.length) (fuel : Nat) (name : String) :
    Ends (instantiate fuel m name) l
      (fun id l' => l'.machine.store.Serving id (.ofModule m) ∧ Presents id m l')
      fun _ _ => True := by
  rw [instantiate_eq]
  refine Ends.bind (prepare_presents imports structured counted) ?_
  rintro id l₁ ⟨serving, presents⟩
  refine Ends.bind (applySegments_stay m.segments) fun _ l₂ stays => ?_
  refine (finish_stays fuel name).mono ?_ fun _ _ _ => trivial
  rintro _ l₃ ⟨rfl, later⟩
  exact ⟨(stays.trans later).serving serving, presents.stay (stays.trans later)⟩

/-- A decoded module of sound structure, its context and its instance have the same index
spaces. -/
theorem instantiate_agrees {bytes : List UInt8} {fuel : Nat} {name : String} {l' : Linker}
    (decoded : Module.decode bytes = .ok m) (structured : m.checkStructure = .ok ())
    (ran : instantiate fuel m name l = .ok id l') :
    ∃ inst, l'.instance? id = some inst ∧ m.Agrees (.ofModule m) inst l'.machine.store := by
  obtain ⟨r, read⟩ := Decoder.decodeWith_eq_ok_iff.mp decoded
  obtain ⟨-, -, -, writable, -⟩ := Decoder.Yields.module_ true _ _ _ read
  have imports : ∀ i ∈ m.imports, i.desc.Writable := fun i mem =>
    (writable.imports.fine i mem).desc
  obtain ⟨⟨inst, found, serves⟩, ⟨inst', found', exporting⟩⟩ :=
    (instantiate_serves imports structured (dataCount_of_decode decoded) fuel name).good ran
  cases found.symm.trans found'
  have placed := fun e mem => Module.index_of_soundIndices
    (Module.soundIndices_of_checkStructure structured) imports mem (writable.exports.fine e mem).kind
  exact ⟨inst, found, Store.agrees_of_serves structured serves placed exporting⟩

/-- A module that imports a global and then a function of another type than its own, which it
exports under names in the reverse order. -/
def mixedBytes : List UInt8 :=
  [0x00, 0x61, 0x73, 0x6d, 1, 0, 0, 0,
    1, 9, 2, 0x60, 0, 0, 0x60, 1, 0x7f, 1, 0x7f,
    2, 14, 2, 1, 0x68, 1, 0x67, 3, 0x7f, 0, 1, 0x68, 1, 0x66, 0, 1,
    3, 2, 1, 0,
    7, 9, 2, 1, 0x61, 0, 1, 1, 0x62, 0, 0,
    10, 4, 1, 2, 0, 0x0b]

/-- What these bytes hold. -/
def mixedModule : Module :=
  { types := [⟨[], []⟩, ⟨[.i32], [.i32]⟩]
    imports := [⟨"h", "g", .global, 0, none, none, some ⟨.i32, false⟩⟩,
      ⟨"h", "f", .func, 1, none, none, none⟩]
    funcs := [0]
    exports := [⟨"a", .func, 1⟩, ⟨"b", .func, 0⟩]
    code := [⟨[], []⟩] }

/-- A linker that has what the module asks for. -/
def mixedLinker : Linker :=
  after (hostModule "h" [⟨"g", .global ⟨.i32, false⟩ (some (.i32 8))⟩,
    ⟨"f", .func ⟨[.i32], [.i32]⟩ (some (.const [some (.i32 1)]))⟩])
    (Embedding.new {}).linker

set_option maxRecDepth 20000 in
theorem instantiate_agrees_mixed :
    ∃ l' inst, Module.decode mixedBytes = .ok mixedModule ∧
      mixedModule.checkStructure = .ok () ∧
      instantiate 1 mixedModule "" mixedLinker = .ok 1 l' ∧ l'.instance? 1 = some inst ∧
      mixedModule.Agrees (.ofModule mixedModule) inst l'.machine.store := by
  have decoded : Module.decode mixedBytes = .ok mixedModule := rfl
  have structured : mixedModule.checkStructure = .ok () := rfl
  have ran : instantiate 1 mixedModule "" mixedLinker =
      .ok 1 (after (instantiate 1 mixedModule "") mixedLinker) := rfl
  obtain ⟨inst, found, agrees⟩ := instantiate_agrees decoded structured ran
  exact ⟨_, inst, decoded, structured, ran, found, agrees⟩

end Link

end WasmMachine
