/-
# The course of an instantiation

What making an instance does to a store, whatever the module is and however it ends.  A
fresh instance comes first, with what its imports are bound to.  Definitions and exports
are added one by one, then the segments are applied in their order, and the start function
runs last.  A failure stops the course at a stage, and what was done up to there stays.
Nothing is asked of the module: it may be any tree.
-/

import WasmMachine.Link.Instantiate

namespace WasmMachine

/-- A linker with another store. -/
def Linker.withStore (l : Linker) (s : Store) : Linker :=
  { l with machine := { l.machine with store := s } }

namespace ModuleInstance

/-- The instance that a module starts with: it has what its imports are bound to. -/
def fresh (m : Module) (name : String) (externs : List Extern) : ModuleInstance :=
  externs.foldl .addAddress { name := name, types := m.types }

variable (inst : ModuleInstance) (e : Extern)

/-- An address is noted in the index space of its kind, and no segment is. -/
theorem elems_addAddress : (inst.addAddress e).elems = inst.elems := by
  unfold addAddress
  split
  all_goals rfl

theorem datas_addAddress : (inst.addAddress e).datas = inst.datas := by
  unfold addAddress
  split
  all_goals rfl

theorem elems_foldl_addAddress (externs : List Extern) :
    (externs.foldl addAddress inst).elems = inst.elems :=
  List.foldlRecOn (motive := fun made => made.elems = inst.elems) externs addAddress rfl
    fun made same e _ => (made.elems_addAddress e).trans same

theorem datas_foldl_addAddress (externs : List Extern) :
    (externs.foldl addAddress inst).datas = inst.datas :=
  List.foldlRecOn (motive := fun made => made.datas = inst.datas) externs addAddress rfl
    fun made same e _ => (made.datas_addAddress e).trans same

end ModuleInstance

namespace Store

/-- Note an address in an instance. -/
abbrev place (s : Store) (id : InstanceId) (e : Extern) : Store :=
  s.modifyInstance id (·.addAddress e)

/-- A reference that an element segment of an instance may hold: to a function of the
instance, or the value of one of the segment's expressions. -/
def Denotes (s : Store) (inst : ModuleInstance) (e : Element) (r : Ref) : Prop :=
  (∃ addr ∈ inst.funcs, r = .func addr) ∨ ∃ expr ∈ e.exprList, s.constant inst expr = .ok (.ref r)

/-- What is added to a store in one go while an instance of a module is made: a definition
with its place in the instance, or an export. -/
inductive Addition (m : Module) (id : InstanceId) (s : Store) : Store → Prop
  | func {index : UInt32} {type : FuncType} {body : FuncBody} :
      index ∈ m.funcs → m.types[index.toNat]? = some type → body ∈ m.code →
      Addition m id s
        ((s.addFunc (.code ⟨some id, type, body.localTypes, body.body⟩)).2.place id
          ⟨.func, s.funcs.size⟩)
  | table {type : TableType} :
      type ∈ m.tables →
      Addition m id s ((s.addTable type).2.place id ⟨.table, s.tables.size⟩)
  | memory {type : MemoryType} :
      type ∈ m.memories →
      Addition m id s ((s.addMemory type).2.place id ⟨.memory, s.memories.size⟩)
  | global {g : Global} {inst : ModuleInstance} {v : Value} :
      g ∈ m.globals → s.instances[id]? = some inst → s.constant inst g.init = .ok v →
      v.type = g.type.type →
      Addition m id s ((s.addGlobal g.type v).2.place id ⟨.global, s.globals.size⟩)
  | elem {e : Element} {inst : ModuleInstance} {refs : List Ref} :
      e ∈ m.elements → s.instances[id]? = some inst → (∀ r ∈ refs, s.Denotes inst e r) →
      Addition m id s
        ((s.addElem e.type refs).2.modifyInstance id fun inst =>
          { inst with elems := inst.elems.push s.elems.size })
  | data {d : DataSegment} :
      d ∈ m.data →
      Addition m id s
        ((s.addData d.init).2.modifyInstance id fun inst =>
          { inst with datas := inst.datas.push s.datas.size })
  | export {e : Export} {inst : ModuleInstance} {addr : Addr} :
      e ∈ m.exports → s.instances[id]? = some inst →
      (inst.addresses e.kind)[e.index.toNat]? = some addr →
      Addition m id s (s.modifyInstance id (·.addExport e.name ⟨e.kind, addr⟩))

/-- The references that an element segment holds. -/
def refsOf (s : Store) (addr : Addr) : List Ref := ((s.elems[addr]?).map (·.refs)).getD []

/-- The bytes that a data segment holds. -/
def bytesOf (s : Store) (addr : Addr) : List UInt8 := ((s.datas[addr]?).map (·.data)).getD []

/-- The size of a table. -/
def tableSize (s : Store) (addr : Addr) : Nat := ((s.tables[addr]?).map (·.elems.size)).getD 0

/-- The size of a memory in bytes. -/
def memorySize (s : Store) (addr : Addr) : Nat := ((s.memories[addr]?).map (·.data.size)).getD 0

/-- What applying an element segment does, which is kept in the segment at an address. -/
inductive AppliesElement (inst : ModuleInstance) (e : Element) (segment : Addr) (s : Store) :
    Store → Prop
  | active {table : Addr} {offset : UInt32} :
      e.mode = .active → inst.tables[e.table.toNat]? = some table →
      s.offset inst e.offset = .ok offset →
      offset.toNat + (s.refsOf segment).length ≤ s.tableSize table →
      AppliesElement inst e segment s
        ((s.writeTable table offset.toNat (s.refsOf segment)).dropElem segment)
  | declarative :
      e.mode = .declarative → AppliesElement inst e segment s (s.dropElem segment)
  | passive :
      e.mode ≠ .active → e.mode ≠ .declarative → AppliesElement inst e segment s s

/-- What applying a data segment does, which is kept in the segment at an address. -/
inductive AppliesData (inst : ModuleInstance) (d : DataSegment) (segment : Addr) (s : Store) :
    Store → Prop
  | active {memory : Addr} {offset : UInt32} :
      d.mode = .active → inst.memories[d.memory.toNat]? = some memory →
      s.offset inst d.offset = .ok offset →
      offset.toNat + (s.bytesOf segment).length ≤ s.memorySize memory →
      AppliesData inst d segment s
        ((s.writeMemory memory offset.toNat (s.bytesOf segment)).dropData segment)
  | passive : d.mode ≠ .active → AppliesData inst d segment s s

end Store

/-- A stage of making an instance: adding definitions and exports, applying a segment, or
running the start function. -/
inductive Stage
  | definitions
  | element (i : Nat)
  | data (i : Nat)
  | start

namespace Store

/-- The stores on the way to an instance of a module, each with the stage that comes next.
The instance stands behind all others, and at the segments it has an address for each. -/
inductive Made (m : Module) (first : ModuleInstance) (s : Store) : Stage → Store → Prop
  | fresh : Made m first s .definitions (s.addInstance first).2
  | add {s₁ s₂ : Store} :
      Made m first s .definitions s₁ → s₁.Addition m s.instances.size s₂ →
      Made m first s .definitions s₂
  | defined {s₁ : Store} {inst : ModuleInstance} :
      Made m first s .definitions s₁ → s₁.instances[s.instances.size]? = some inst →
      inst.elems.size = m.elements.length → inst.datas.size = m.data.length →
      Made m first s (.element 0) s₁
  | element {s₁ s₂ : Store} {i : Nat} {e : Element} {inst : ModuleInstance} {segment : Addr} :
      Made m first s (.element i) s₁ → m.elements[i]? = some e →
      s₁.instances[s.instances.size]? = some inst → inst.elems[i]? = some segment →
      s₁.AppliesElement inst e segment s₂ → Made m first s (.element (i + 1)) s₂
  | elements {s₁ : Store} :
      Made m first s (.element m.elements.length) s₁ → Made m first s (.data 0) s₁
  | data {s₁ s₂ : Store} {i : Nat} {d : DataSegment} {inst : ModuleInstance} {segment : Addr} :
      Made m first s (.data i) s₁ → m.data[i]? = some d →
      s₁.instances[s.instances.size]? = some inst → inst.datas[i]? = some segment →
      s₁.AppliesData inst d segment s₂ → Made m first s (.data (i + 1)) s₂
  | datas {s₁ : Store} : Made m first s (.data m.data.length) s₁ → Made m first s .start s₁

/-- What can be in the way at a stage, in a store and for the instance that is made. A start
function that is there can still fail when it runs. -/
inductive Obstacle (m : Module) (inst : ModuleInstance) (s : Store) : Stage → LinkError → Prop
  | bodyCount :
      m.funcs.length ≠ m.code.length →
      Obstacle m inst s .definitions (.bodyCount m.funcs.length m.code.length)
  | funcType {i : Nat} {index : UInt32} :
      index ∈ m.funcs → m.types[index.toNat]? = none →
      Obstacle m inst s .definitions (.funcType i index)
  | globalValue {g : Global} {problem : ConstantProblem} :
      g ∈ m.globals → s.constant inst g.init = .error problem →
      Obstacle m inst s .definitions (.constant problem)
  | globalInit {i : Nat} {g : Global} {v : Value} :
      g ∈ m.globals → s.constant inst g.init = .ok v → v.type ≠ g.type.type →
      Obstacle m inst s .definitions (.globalInit i v.type g.type.type)
  | elementFunc {e : Element} {func : UInt32} :
      e ∈ m.elements → func ∈ e.funcList → inst.funcs[func.toNat]? = none →
      Obstacle m inst s .definitions (.elementFunc func)
  | elementValue {e : Element} {expr : List Instruction} {problem : ConstantProblem} :
      e ∈ m.elements → expr ∈ e.exprList → s.constant inst expr = .error problem →
      Obstacle m inst s .definitions (.constant problem)
  | elementEntry {e : Element} {expr : List Instruction} {v : Value} :
      e ∈ m.elements → expr ∈ e.exprList → s.constant inst expr = .ok v → (∀ r, v ≠ .ref r) →
      Obstacle m inst s .definitions (.elementEntry v.type)
  | exportIndex {e : Export} :
      e ∈ m.exports → (inst.addresses e.kind)[e.index.toNat]? = none →
      Obstacle m inst s .definitions (.exportIndex e.name e.kind e.index)
  | elementTable {i : Nat} {e : Element} :
      m.elements[i]? = some e → e.mode = .active → inst.tables[e.table.toNat]? = none →
      Obstacle m inst s (.element i) (.elementTable i e.table)
  | elementOffset {i : Nat} {e : Element} {problem : ConstantProblem} :
      m.elements[i]? = some e → e.mode = .active → s.offset inst e.offset = .error problem →
      Obstacle m inst s (.element i) (.constant problem)
  | elementBounds {i : Nat} {e : Element} {segment table : Addr} {offset : UInt32} :
      m.elements[i]? = some e → e.mode = .active → inst.elems[i]? = some segment →
      inst.tables[e.table.toNat]? = some table → s.offset inst e.offset = .ok offset →
      s.tableSize table < offset.toNat + (s.refsOf segment).length →
      Obstacle m inst s (.element i) (.elementBounds i e.table offset)
  | dataMemory {i : Nat} {d : DataSegment} :
      m.data[i]? = some d → d.mode = .active → inst.memories[d.memory.toNat]? = none →
      Obstacle m inst s (.data i) (.dataMemory i d.memory)
  | dataOffset {i : Nat} {d : DataSegment} {problem : ConstantProblem} :
      m.data[i]? = some d → d.mode = .active → s.offset inst d.offset = .error problem →
      Obstacle m inst s (.data i) (.constant problem)
  | dataBounds {i : Nat} {d : DataSegment} {segment memory : Addr} {offset : UInt32} :
      m.data[i]? = some d → d.mode = .active → inst.datas[i]? = some segment →
      inst.memories[d.memory.toNat]? = some memory → s.offset inst d.offset = .ok offset →
      s.memorySize memory < offset.toNat + (s.bytesOf segment).length →
      Obstacle m inst s (.data i) (.dataBounds i d.memory offset)
  | startIndex {index : UInt32} :
      m.start = some index → inst.funcs[index.toNat]? = none →
      Obstacle m inst s .start (.startIndex index)

variable {s s₁ s₂ : Store} {m : Module} {id : InstanceId} {first : ModuleInstance} {stage : Stage}

/-! ## The new instance -/

/-- The instance at a place has so many segments of either sort. -/
def Counts (s : Store) (id : InstanceId) (elems datas : Nat) : Prop :=
  ∃ inst, s.instances[id]? = some inst ∧ inst.elems.size = elems ∧ inst.datas.size = datas

/-- A change of the instance that changes the numbers in a known way. -/
theorem Counts.modify {n k n' k' : Nat} (counts : s.Counts id n k)
    {f : ModuleInstance → ModuleInstance}
    (sizes : ∀ inst, inst.elems.size = n → inst.datas.size = k →
      (f inst).elems.size = n' ∧ (f inst).datas.size = k')
    (same : s₁.instances = s.instances) : (s₁.modifyInstance id f).Counts id n' k' := by
  obtain ⟨inst, found, elems, datas⟩ := counts
  refine ⟨f inst, ?_, sizes inst elems datas⟩
  unfold modifyInstance
  rw [Array.getElem?_modify, if_pos rfl, same, found]
  rfl

theorem Counts.place {n k : Nat} (counts : s.Counts id n k) (e : Extern)
    (same : s₁.instances = s.instances) : (s₁.place id e).Counts id n k :=
  counts.modify (fun inst elems datas => ⟨inst.elems_addAddress e ▸ elems,
    inst.datas_addAddress e ▸ datas⟩) same

theorem instances_modifyInstance (s : Store) (id : InstanceId)
    (f : ModuleInstance → ModuleInstance) :
    (s.modifyInstance id f).instances = s.instances.modify id f := rfl

/-- An addition changes one instance, the one that is being made. -/
theorem Addition.instances (addition : s.Addition m id s₁) :
    ∃ f, s₁.instances = s.instances.modify id f := by
  cases addition with
  | _ => exact ⟨_, instances_modifyInstance _ id _⟩

theorem AppliesElement.instances {inst : ModuleInstance} {e : Element} {segment : Addr}
    (applies : s.AppliesElement inst e segment s₁) : s₁.instances = s.instances := by
  cases applies with
  | _ => rfl

theorem AppliesData.instances {inst : ModuleInstance} {d : DataSegment} {segment : Addr}
    (applies : s.AppliesData inst d segment s₁) : s₁.instances = s.instances := by
  cases applies with
  | _ => rfl

/-- On the way there is always an instance at the new place. -/
theorem Made.exists_instance (made : s.Made m first stage s₁) :
    ∃ inst, s₁.instances[s.instances.size]? = some inst := by
  induction made with
  | fresh => exact ⟨first, by simp [addInstance]⟩
  | add _ addition ih =>
      obtain ⟨inst, found⟩ := ih
      obtain ⟨f, same⟩ := addition.instances
      exact ⟨f inst, by rw [same, Array.getElem?_modify, if_pos rfl, found, Option.map_some]⟩
  | defined _ found _ _ _ => exact ⟨_, found⟩
  | element _ _ found _ applies _ => exact ⟨_, applies.instances ▸ found⟩
  | elements _ ih => exact ih
  | data _ _ found _ applies _ => exact ⟨_, applies.instances ▸ found⟩
  | datas _ ih => exact ih

end Store

end WasmMachine
