/-
# Where definitions go

The definitions of a module are added behind everything that the store holds already, sort by
sort and each sort in the order of the module.  The instance that is being made notes their
addresses behind those of its imports.  So tables start with null references and memories with
zeros, the segments hold what the module declares, and nothing that was there before is
touched.  This holds of any module: where a definition cannot be added, the ones in front of it
have been added in this way.
-/

import WasmMachine.Proofs.Linking.Following

namespace WasmMachine

/-- A table as a module defines it: null references. -/
def TableInst.fresh (t : TableType) : TableInst :=
  ⟨t, Array.replicate t.limits.min.toNat (.null t.elem)⟩

/-- A memory as a module defines it: zeros. -/
def MemInst.fresh (t : MemoryType) : MemInst :=
  ⟨t, ⟨Array.replicate (t.limits.min.toNat * pageSize) 0⟩⟩

/-- The addresses of things that were added one after the other. -/
def addressesFrom (start count : Nat) : Array Addr := (List.range' start count).toArray

theorem addressesFrom_succ (start count : Nat) :
    addressesFrom start (count + 1) = (addressesFrom start count).push (start + count) := by
  rw [addressesFrom, List.range'_concat, Nat.one_mul, ← List.push_toArray]
  rfl

theorem getElem?_addressesFrom {start count i : Nat} :
    (addressesFrom start count)[i]? = if i < count then some (start + i) else none := by
  by_cases inside : i < count
  · simp [addressesFrom, inside]
  · simp [addressesFrom, inside]

/-- What is added to a store while an instance is made: definitions by their sorts, and the
exports of the instance. -/
structure Batch where
  funcs : List FuncInst := []
  tables : List TableInst := []
  memories : List MemInst := []
  globals : List GlobalInst := []
  elems : List ElemInst := []
  datas : List DataInst := []
  exports : List (String × Extern) := []

/-- An instance with the addresses of a batch that is added to a store. -/
def ModuleInstance.noting (inst : ModuleInstance) (s : Store) (b : Batch) : ModuleInstance :=
  { inst with
    funcs := inst.funcs ++ addressesFrom s.funcs.size b.funcs.length
    tables := inst.tables ++ addressesFrom s.tables.size b.tables.length
    memories := inst.memories ++ addressesFrom s.memories.size b.memories.length
    globals := inst.globals ++ addressesFrom s.globals.size b.globals.length
    elems := inst.elems ++ addressesFrom s.elems.size b.elems.length
    datas := inst.datas ++ addressesFrom s.datas.size b.datas.length
    exports := b.exports }

namespace Store

/-- A store with a batch behind everything that it holds, and with the instance that the batch
belongs to. -/
def behind (s : Store) (first : ModuleInstance) (b : Batch) : Store where
  funcs := s.funcs ++ b.funcs.toArray
  tables := s.tables ++ b.tables.toArray
  memories := s.memories ++ b.memories.toArray
  globals := s.globals ++ b.globals.toArray
  elems := s.elems ++ b.elems.toArray
  datas := s.datas ++ b.datas.toArray
  instances := s.instances.push (first.noting s b)
  kept := s.kept

variable {s : Store} {first inst : ModuleInstance} {b : Batch}

theorem addressesFrom_zero (start : Nat) : addressesFrom start 0 = #[] := rfl

/-- A fresh instance has an empty batch. -/
theorem behind_empty : s.behind first { exports := first.exports } = (s.addInstance first).2 := by
  simp [behind, addInstance, ModuleInstance.noting, addressesFrom_zero]

/-- The instance that a batch belongs to. -/
theorem instance_behind : (s.behind first b).instances[s.instances.size]? =
    some (first.noting s b) :=
  Array.getElem?_push_size

/-- Changing what was added last. -/
theorem push_modify {α : Type} (xs : Array α) (x : α) (f : α → α) :
    (xs.push x).modify xs.size f = xs.push (f x) := by
  apply Array.ext_getElem?
  intro i
  rw [Array.getElem?_modify, Array.getElem?_push, Array.getElem?_push]
  by_cases here : i = xs.size
  · simp [here]
  · simp [here, Ne.symm here]

theorem addAddress_func (inst : ModuleInstance) (addr : Addr) :
    inst.addAddress ⟨.func, addr⟩ = { inst with funcs := inst.funcs.push addr } := rfl

theorem addAddress_table (inst : ModuleInstance) (addr : Addr) :
    inst.addAddress ⟨.table, addr⟩ = { inst with tables := inst.tables.push addr } := rfl

theorem addAddress_memory (inst : ModuleInstance) (addr : Addr) :
    inst.addAddress ⟨.memory, addr⟩ = { inst with memories := inst.memories.push addr } := rfl

theorem addAddress_global (inst : ModuleInstance) (addr : Addr) :
    inst.addAddress ⟨.global, addr⟩ = { inst with globals := inst.globals.push addr } := rfl

/-! Adding one more definition, or an export, makes the batch longer. -/

theorem addFunc_behind (f : FuncInst) :
    ((s.behind first b).addFunc f).2.place s.instances.size
        ⟨.func, (s.behind first b).funcs.size⟩ =
      s.behind first { b with funcs := b.funcs ++ [f] } := by
  simp [behind, addFunc, modifyInstance, push_modify, ModuleInstance.noting,
    addAddress_func, addressesFrom_succ]

theorem addTable_behind (t : TableType) :
    ((s.behind first b).addTable t).2.place s.instances.size
        ⟨.table, (s.behind first b).tables.size⟩ =
      s.behind first { b with tables := b.tables ++ [.fresh t] } := by
  simp [behind, addTable, modifyInstance, push_modify, ModuleInstance.noting,
    addAddress_table, addressesFrom_succ, TableInst.fresh]

theorem addMemory_behind (t : MemoryType) :
    ((s.behind first b).addMemory t).2.place s.instances.size
        ⟨.memory, (s.behind first b).memories.size⟩ =
      s.behind first { b with memories := b.memories ++ [.fresh t] } := by
  simp [behind, addMemory, modifyInstance, push_modify, ModuleInstance.noting,
    addAddress_memory, addressesFrom_succ, MemInst.initial_eq, MemInst.fresh]

theorem addGlobal_behind (t : GlobalType) (v : Value) :
    ((s.behind first b).addGlobal t v).2.place s.instances.size
        ⟨.global, (s.behind first b).globals.size⟩ =
      s.behind first { b with globals := b.globals ++ [⟨t, v⟩] } := by
  simp [behind, addGlobal, modifyInstance, push_modify, ModuleInstance.noting,
    addAddress_global, addressesFrom_succ]

theorem addElem_behind (t : ValType) (refs : List Ref) :
    (((s.behind first b).addElem t refs).2.modifyInstance s.instances.size fun inst =>
        { inst with elems := inst.elems.push (s.behind first b).elems.size }) =
      s.behind first { b with elems := b.elems ++ [⟨t, refs⟩] } := by
  simp [behind, addElem, modifyInstance, push_modify, ModuleInstance.noting, addressesFrom_succ]

theorem addData_behind (data : List UInt8) :
    (((s.behind first b).addData data).2.modifyInstance s.instances.size fun inst =>
        { inst with datas := inst.datas.push (s.behind first b).datas.size }) =
      s.behind first { b with datas := b.datas ++ [⟨data⟩] } := by
  simp [behind, addData, modifyInstance, push_modify, ModuleInstance.noting, addressesFrom_succ]

theorem addExport_behind (name : String) (e : Extern) :
    (s.behind first b).modifyInstance s.instances.size (·.addExport name e) =
      s.behind first { b with exports := ((first.noting s b).addExport name e).exports } := by
  simp [behind, modifyInstance, push_modify, ModuleInstance.noting, ModuleInstance.addExport]

/-- What an element segment of a module declares: the functions that it lists, or the values of
its expressions. -/
structure Declares (s : Store) (inst : ModuleInstance) (e : Element) (held : ElemInst) : Prop where
  type : held.type = e.type
  refs : if e.exprList.isEmpty then
      List.Forall₂ (fun func r => ∃ addr, inst.funcs[func.toNat]? = some addr ∧ r = .func addr)
        e.funcList held.refs
    else List.Forall₂ (fun expr r => s.constant inst expr = .ok (.ref r)) e.exprList held.refs

/-- Constant expressions see nothing but globals and functions. -/
theorem constant_congr {s s' : Store} {inst inst' : ModuleInstance}
    (globals : s'.globals = s.globals) (funcs : inst'.funcs = inst.funcs)
    (globals' : inst'.globals = inst.globals) (expr : List Instruction) :
    s'.constant inst' expr = s.constant inst expr := by
  have values : s'.constantValue inst' = s.constantValue inst := by
    funext i
    simp only [constantValue, globals, funcs, globals']
  simp only [constant, values]

theorem Declares.congr {s s' : Store} {inst inst' : ModuleInstance} {e : Element} {held : ElemInst}
    (declares : s.Declares inst e held) (globals : s'.globals = s.globals)
    (funcs : inst'.funcs = inst.funcs) (globals' : inst'.globals = inst.globals) :
    s'.Declares inst' e held := by
  refine ⟨declares.type, ?_⟩
  simp only [funcs, constant_congr globals funcs globals']
  exact declares.refs

end Store

/-- The results for the items of a list, each in its place, where the state stays the same. -/
theorem Ends.mapM_forall₂ {ε σ β γ : Type} {items : List β} {each : β → EStateM ε σ γ} {s : σ}
    {R : β → γ → Prop} {Bad : ε → σ → Prop}
    (each_ends : ∀ item ∈ items, Ends (each item) s (fun c s' => s' = s ∧ R item c) Bad) :
    Ends (items.mapM each) s (fun cs s' => s' = s ∧ List.Forall₂ R items cs) Bad := by
  induction items with
  | nil => exact Ends.pure ⟨rfl, .nil⟩
  | cons item rest ih =>
      obtain ⟨here, others⟩ := List.forall_mem_cons.mp each_ends
      rw [List.mapM_cons]
      refine Ends.bind here ?_
      rintro c _ ⟨rfl, holds⟩
      refine Ends.bind (ih others) ?_
      rintro cs _ ⟨rfl, hold⟩
      exact Ends.pure ⟨rfl, .cons holds hold⟩

/-- A linker with a batch in its store. -/
def Linker.behind (l : Linker) (first : ModuleInstance) (b : Batch) : Linker :=
  l.withStore (l.machine.store.behind first b)

namespace Link

variable {start : Linker} {m : Module} {first : ModuleInstance} {b : Batch}

/-- Definitions could not be added any further; the ones in front are behind everything that
there was. -/
def Halted (start : Linker) (first : ModuleInstance) (stop : LinkStop) (l' : Linker) : Prop :=
  ∃ e b, stop = .failed e ∧ l' = start.behind first b

/-- The instance that is being made. -/
theorem inst_behind : Link.inst start.machine.store.instances.size (start.behind first b) =
    .ok (first.noting start.machine.store b) (start.behind first b) :=
  inst_eq Store.instance_behind

/-! ## Stages -/

theorem addFuncs_lays : Ends (addFuncs start.machine.store.instances.size m)
    (start.behind first b)
    (fun _ l' => ∃ added, added.length = m.funcs.length ∧
      l' = start.behind first { b with funcs := b.funcs ++ added })
    (Halted start first) := by
  unfold addFuncs
  by_cases fits : m.funcs.length = m.code.length
  · rw [if_neg (not_not.mpr fits)]
    have zipped : (m.funcs.zip m.code).length = m.funcs.length := by simp [fits]
    rw [← zipped]
    refine forEach_ends (fun done l' => ∃ added : List FuncInst, added.length = done.length ∧
      l' = start.behind first { b with funcs := b.funcs ++ added }) ⟨[], rfl, by simp⟩ ?_
    rintro done ⟨index, body⟩ rest same _ ⟨added, length, rfl⟩
    cases known : m.types[index.toNat]? with
    | none =>
        simp only [known]
        exact ⟨_, _, rfl, rfl⟩
    | some type =>
        simp only [known]
        refine Ends.of_ok rfl ⟨added ++ [.code
          ⟨some start.machine.store.instances.size, type, body.localTypes, body.body⟩],
          by simp [length], ?_⟩
        rw [← List.append_assoc]
        exact congrArg start.withStore (Store.addFunc_behind _)
  · rw [if_pos fits]
    exact Ends.stop rfl ⟨_, _, rfl, rfl⟩

theorem addTablesAndMemories_lays :
    Ends (addTablesAndMemories start.machine.store.instances.size m) (start.behind first b)
      (fun _ l' => l' = start.behind first { b with
        tables := b.tables ++ m.tables.map .fresh
        memories := b.memories ++ m.memories.map .fresh })
      (Halted start first) := by
  unfold addTablesAndMemories
  refine Ends.bind (Ends.forM (fun done l' => l' = start.behind first { b with
    tables := b.tables ++ done.map .fresh }) (by simp) ?_) ?_
  · rintro done type rest same _ rfl
    refine Ends.of_ok rfl ?_
    rw [List.map_append, ← List.append_assoc]
    exact congrArg start.withStore (Store.addTable_behind _)
  · rintro _ _ rfl
    refine Ends.forM (fun done l' => l' = start.behind first { b with
      tables := b.tables ++ m.tables.map .fresh
      memories := b.memories ++ done.map .fresh }) (by simp) ?_
    rintro done type rest same _ rfl
    refine Ends.of_ok rfl ?_
    rw [List.map_append, ← List.append_assoc]
    exact congrArg start.withStore (Store.addMemory_behind _)

theorem addGlobals_lays : Ends (addGlobals start.machine.store.instances.size m)
    (start.behind first b)
    (fun _ l' => ∃ added, added.length = m.globals.length ∧
      l' = start.behind first { b with globals := b.globals ++ added })
    (Halted start first) := by
  unfold addGlobals
  refine forEach_ends (fun done l' => ∃ added : List GlobalInst, added.length = done.length ∧
    l' = start.behind first { b with globals := b.globals ++ added }) ⟨[], rfl, by simp⟩ ?_
  rintro done g rest same _ ⟨added, length, rfl⟩
  apply Ends.step rfl
  apply Ends.step inst_behind
  generalize Store.constant _ _ g.init = ran
  cases ran with
  | error problem => exact Ends.stop rfl ⟨_, _, rfl, rfl⟩
  | ok v =>
      apply Ends.step rfl
      by_cases typed : v.type = g.type.type
      · rw [if_neg (not_not.mpr typed)]
        refine Ends.of_ok rfl ⟨added ++ [⟨g.type, v⟩], by simp [length], ?_⟩
        rw [← List.append_assoc]
        exact congrArg start.withStore (Store.addGlobal_behind _ _)
      · rw [if_pos typed]
        exact Ends.stop rfl ⟨_, _, rfl, rfl⟩

theorem elementRefs_lays (e : Element) : Ends (elementRefs start.machine.store.instances.size e)
    (start.behind first b)
    (fun refs l' => l' = start.behind first b ∧
      (start.machine.store.behind first b).Declares (first.noting start.machine.store b) e
        ⟨e.type, refs⟩)
    (Halted start first) := by
  unfold elementRefs
  by_cases listed : e.exprList.isEmpty
  · rw [if_pos listed]
    refine Ends.mono (Ends.mapM_forall₂ (R := fun func r =>
      ∃ addr, (first.noting start.machine.store b).funcs[func.toNat]? = some addr ∧
        r = .func addr) ?_) ?_ fun _ _ halted => halted
    · intro func _
      apply Ends.step inst_behind
      cases there : (first.noting start.machine.store b).funcs[func.toNat]? with
      | none => exact ⟨_, _, rfl, rfl⟩
      | some addr => exact Ends.pure ⟨rfl, addr, rfl, rfl⟩
    · rintro refs _ ⟨rfl, held⟩
      exact ⟨rfl, rfl, by rwa [if_pos listed]⟩
  · rw [if_neg listed]
    refine Ends.mono (Ends.mapM_forall₂ (R := fun expr r =>
      (start.machine.store.behind first b).constant (first.noting start.machine.store b) expr =
        .ok (.ref r)) ?_) ?_ fun _ _ halted => halted
    · intro expr _
      apply Ends.step rfl
      apply Ends.step inst_behind
      change Ends (liftConstant ((start.machine.store.behind first b).constant _ expr) >>= _) _ _ _
      cases (start.machine.store.behind first b).constant
          (first.noting start.machine.store b) expr with
      | error problem => exact Ends.stop rfl ⟨_, _, rfl, rfl⟩
      | ok v =>
          apply Ends.step rfl
          cases v with
          | ref r => exact Ends.pure ⟨rfl, rfl⟩
          | _ => exact ⟨_, _, rfl, rfl⟩
    · rintro refs _ ⟨rfl, held⟩
      exact ⟨rfl, rfl, by rwa [if_neg listed]⟩

theorem addSegments_lays : Ends (addSegments start.machine.store.instances.size m)
    (start.behind first b)
    (fun _ l' => ∃ added,
      List.Forall₂ ((start.machine.store.behind first b).Declares
        (first.noting start.machine.store b)) m.elements added ∧
      l' = start.behind first { b with
        elems := b.elems ++ added
        datas := b.datas ++ m.data.map fun d => ⟨d.init⟩ })
    (Halted start first) := by
  unfold addSegments
  refine Ends.bind (Ends.forM (fun done l' => ∃ added,
      List.Forall₂ ((start.machine.store.behind first b).Declares
        (first.noting start.machine.store b)) done added ∧
      l' = start.behind first { b with elems := b.elems ++ added }) ⟨[], .nil, by simp⟩ ?_) ?_
  · rintro done e rest same _ ⟨added, declared, rfl⟩
    refine Ends.bind (elementRefs_lays e) ?_
    rintro refs _ ⟨rfl, declares⟩
    refine Ends.of_ok rfl ⟨added ++ [⟨e.type, refs⟩], ?_, ?_⟩
    · exact List.rel_append declared (.cons (declares.congr rfl rfl rfl) .nil)
    · rw [← List.append_assoc]
      exact congrArg start.withStore (Store.addElem_behind _ _)
  · rintro _ _ ⟨added, declared, rfl⟩
    refine Ends.mono (Ends.forM (fun done l' => l' = start.behind first { b with
        elems := b.elems ++ added
        datas := b.datas ++ done.map fun (d : DataSegment) => ⟨d.init⟩ }) (by simp) ?_)
      (fun _ l' laid => ⟨added, declared, laid⟩) fun _ _ halted => halted
    rintro done d rest same _ rfl
    refine Ends.of_ok rfl ?_
    rw [List.map_append, ← List.append_assoc]
    exact congrArg start.withStore (Store.addData_behind _)

theorem bindExports_lays : Ends (bindExports start.machine.store.instances.size m)
    (start.behind first b)
    (fun _ l' => ∃ exports, l' = start.behind first { b with exports := exports })
    (Halted start first) := by
  unfold bindExports
  refine Ends.forM (fun _ l' => ∃ exports, l' = start.behind first { b with exports := exports })
    ⟨b.exports, rfl⟩ ?_
  rintro done e rest same _ ⟨exports, rfl⟩
  apply Ends.step inst_behind
  split
  · next addr there =>
      refine Ends.of_ok rfl
        ⟨((first.noting start.machine.store { b with exports := exports }).addExport e.name
          ⟨e.kind, addr⟩).exports, ?_⟩
      exact congrArg start.withStore (Store.addExport_behind _ _)
  · exact ⟨_, _, rfl, rfl⟩

/-! ## All definitions -/

/-- What the definitions of a module are in a store: tables of null references, memories of
zeros and the declared segments. How many functions and globals there are is known too. -/
structure Lays (m : Module) (first : ModuleInstance) (s : Store) (b : Batch) : Prop where
  funcs : b.funcs.length = m.funcs.length
  tables : b.tables = m.tables.map .fresh
  memories : b.memories = m.memories.map .fresh
  globals : b.globals.length = m.globals.length
  elems : List.Forall₂ ((s.behind first b).Declares (first.noting s b)) m.elements b.elems
  datas : b.datas = m.data.map fun d => ⟨d.init⟩

/-- The stages of an instantiation up to the exports. -/
def prepare (m : Module) (name : String) : Link InstanceId := do
  let externs ← lift ((← get).resolve m)
  let id ← add (·.addInstance (.fresh m name externs))
  addFuncs id m
  addTablesAndMemories id m
  addGlobals id m
  addSegments id m
  bindExports id m
  return id

/-- Once the imports are resolved, the definitions are put behind everything that there was, or
something is in their way. -/
theorem prepare_lays {externs : List Extern} (name : String)
    (resolved : start.resolve m = .ok externs) :
    Ends (prepare m name) start
      (fun id l' => id = start.machine.store.instances.size ∧
        ∃ b, Lays m (.fresh m name externs) start.machine.store b ∧
          l' = start.behind (.fresh m name externs) b)
      (Halted start (.fresh m name externs)) := by
  unfold prepare
  apply Ends.step rfl
  simp only [resolved]
  apply Ends.step rfl
  have begun : add (·.addInstance (.fresh m name externs)) start =
      .ok start.machine.store.instances.size (start.behind (.fresh m name externs)
        { exports := (ModuleInstance.fresh m name externs).exports }) := by
    rw [Linker.behind, Store.behind_empty]
    rfl
  apply Ends.step begun
  refine Ends.bind addFuncs_lays ?_
  rintro _ _ ⟨funcs, funcsLength, rfl⟩
  refine Ends.bind addTablesAndMemories_lays ?_
  rintro _ _ rfl
  refine Ends.bind addGlobals_lays ?_
  rintro _ _ ⟨globals, globalsLength, rfl⟩
  refine Ends.bind addSegments_lays ?_
  rintro _ _ ⟨elems, declared, rfl⟩
  refine Ends.bind bindExports_lays ?_
  rintro _ _ ⟨exports, rfl⟩
  refine Ends.pure ⟨rfl, _, {
    funcs := funcsLength
    tables := rfl
    memories := rfl
    globals := globalsLength
    elems := ?_
    datas := rfl }, rfl⟩
  exact declared.imp fun e held declares => declares.congr rfl rfl rfl

end Link

end WasmMachine
