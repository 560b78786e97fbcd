/-
# Instances apart

In a store whose instances were all made from modules without imports, each instance calls
its own code only, no two own the same cell, and no reference leads from one to another.
This file shows that whatever adds to such a store or runs in it keeps it so: the additions
of the linker, the segments that are applied, and the code of an instance.
-/

import WasmMachine.Proofs.Isolation.Run
import WasmMachine.Proofs.Linking.Undone

namespace WasmMachine

/-- The instances of a store have nothing to do with one another. -/
structure Store.Separate (s : Store) : Prop where
  code : ∀ (id : InstanceId) (inst : ModuleInstance), s.instances[id]? = some inst →
    ∀ addr ∈ inst.funcs, s.CodeOf id addr
  encloses : ∀ (id : InstanceId) (inst : ModuleInstance), s.instances[id]? = some inst →
    s.Encloses inst
  apart : ∀ (id id' : InstanceId) (inst inst' : ModuleInstance), s.instances[id]? = some inst →
    s.instances[id']? = some inst' → id ≠ id' → ∀ cell, inst.Owns cell → ¬ inst'.Owns cell

/-! ## References within more functions -/

section More

variable {inst inst' : ModuleInstance} (more : ∀ addr ∈ inst.funcs, addr ∈ inst'.funcs)
include more

theorem Ref.Within.mono {r : Ref} (within : r.Within inst) : r.Within inst' := by
  cases r with
  | func addr => exact more addr within
  | _ => trivial

theorem Value.Within.mono {x : Value} (within : x.Within inst) : x.Within inst' := by
  cases x with
  | ref r => exact Ref.Within.mono more within
  | _ => trivial

theorem Content.Within.mono {c : Content} (within : c.Within inst) : c.Within inst' := by
  cases c with
  | table t => exact fun r mem => (within r mem).mono more
  | global g => exact Value.Within.mono more within
  | elem e => exact fun r mem => (within r mem).mono more
  | _ => trivial

end More

namespace Store

variable {s s' t : Store} {id : InstanceId} {inst : ModuleInstance} {m : Module}

/-! ## Constant expressions -/

/-- A constant expression of an instance makes no reference that leads out of it. -/
theorem Encloses.constantValue (encloses : s.Encloses inst) {i : Instruction} {x : Value}
    (is : s.constantValue inst i = .ok x) : x.Within inst := by
  unfold Store.constantValue at is
  split at is
  case h_6 =>
    split at is
    · next found =>
        cases is
        exact Array.mem_of_getElem? found
    · cases is
  case h_7 =>
    split at is
    · next g found =>
        cases is
        obtain ⟨addr, listed, held⟩ := Option.bind_eq_some_iff.mp found
        obtain ⟨c, there, within⟩ := encloses (.global addr) (Array.mem_of_getElem? listed)
        rw [content?, held] at there
        cases there
        exact within
    · cases is
  case h_8 =>
    split at is
    · cases is
      trivial
    · cases is
  case h_9 => cases is
  all_goals
    cases is
    trivial

theorem Encloses.constant (encloses : s.Encloses inst) {expr : List Instruction} {x : Value}
    (is : s.constant inst expr = .ok x) : x.Within inst := by
  obtain ⟨values, each, only⟩ := Typing.bind_eq_ok_iff.mp is
  split at only
  · cases only
    obtain ⟨i, -, value⟩ := singleton_of_mapM each
    exact encloses.constantValue value
  · cases only

theorem Encloses.denotes (encloses : s.Encloses inst) {e : Element} {r : Ref}
    (denotes : s.Denotes inst e r) : r.Within inst := by
  rcases denotes with ⟨addr, own, rfl⟩ | ⟨expr, -, is⟩
  · exact own
  · exact encloses.constant is

/-! ## Changes of what an instance owns -/

/-- A change within one instance keeps the instances apart. -/
theorem Separate.change (separate : s.Separate) (found : s.instances[id]? = some inst)
    (outside : SameOutside inst.Owns s s') (encloses : s'.Encloses inst) : s'.Separate where
  code id' inst' found' := by
    rw [outside.instances] at found'
    unfold CodeOf
    rw [outside.funcs]
    exact separate.code id' inst' found'
  encloses id' inst' found' cell own := by
    rw [outside.instances] at found'
    by_cases same : id' = id
    · subst same
      cases found.symm.trans found'
      exact encloses cell own
    · obtain ⟨c, held, within⟩ := separate.encloses id' inst' found' cell own
      have foreign : ¬ inst.Owns cell := separate.apart id' id inst' inst found' found same cell own
      exact ⟨c, (outside.cells cell foreign).trans held, within⟩
  apart := by
    rw [outside.instances]
    exact separate.apart

theorem Separate.rewrite (separate : s.Separate) (found : s.instances[id]? = some inst)
    {f : Store → Store} {cell : Cell} {g : Content → Content} (rewrites : Rewrites f cell g)
    (own : inst.Owns cell) (kept : ∀ c, c.Within inst → (g c).Within inst) : (f s).Separate :=
  separate.change found ((SameOutside.refl inst.Owns s).rewrite rewrites own)
    ((separate.encloses id inst found).rewrite rewrites kept)

theorem Separate.appliesElement (separate : s.Separate) (found : s.instances[id]? = some inst)
    {e : Element} {segment : Addr} (own : segment ∈ inst.elems)
    (applies : s.AppliesElement inst e segment s') : s'.Separate := by
  have dropped : ∀ s : Store, s.instances[id]? = some inst → s.Separate →
      (s.dropElem segment).Separate := fun s found separate =>
    separate.rewrite found (rewrites_elem segment _) own fun _ within =>
      within.mapElem fun _ r mem => absurd mem List.not_mem_nil
  cases applies with
  | @active table offset _ listed _ _ =>
      refine dropped _ found (separate.rewrite found (rewrites_table table _)
        (Array.mem_of_getElem? listed) fun _ within => within.mapTable fun _ old => ?_)
      refine Cells.forall_overwrite old fun r mem => ?_
      obtain ⟨c, held, refs⟩ := separate.encloses id inst found (.elem segment) own
      obtain ⟨e, there, rfl⟩ := Option.map_eq_some_iff.mp held
      rw [refsOf, there] at mem
      exact refs r mem
  | declarative _ => exact dropped s found separate
  | passive _ _ => exact separate

theorem Separate.appliesData (separate : s.Separate) (found : s.instances[id]? = some inst)
    {d : DataSegment} {segment : Addr} (own : segment ∈ inst.datas)
    (applies : s.AppliesData inst d segment s') : s'.Separate := by
  cases applies with
  | @active memory offset _ listed _ _ =>
      have written : (s.writeMemory memory offset.toNat (s.bytesOf segment)).Separate :=
        separate.rewrite found (rewrites_memory memory _) (Array.mem_of_getElem? listed)
          fun _ within => within.mapMemory _
      exact written.rewrite found (rewrites_data segment _) own fun _ within => within.mapData _
  | passive _ => exact separate

/-! ## Additions -/

/-- What is in a cell stays in it when something is added to a store. -/
theorem Under.content (under : s.Under s') {cell : Cell} {c : Content}
    (held : s.content? cell = some c) : s'.content? cell = some c := by
  cases cell with
  | table addr =>
      obtain ⟨t, found, rfl⟩ := Option.map_eq_some_iff.mp held
      obtain ⟨_, found', rfl⟩ := under.tables addr t found
      exact congrArg (Option.map Content.table) found'
  | memory addr =>
      obtain ⟨m, found, rfl⟩ := Option.map_eq_some_iff.mp held
      obtain ⟨_, found', rfl⟩ := under.memories addr m found
      exact congrArg (Option.map Content.memory) found'
  | global addr =>
      obtain ⟨g, found, rfl⟩ := Option.map_eq_some_iff.mp held
      obtain ⟨_, found', rfl⟩ := under.globals addr g found
      exact congrArg (Option.map Content.global) found'
  | elem addr =>
      obtain ⟨e, found, rfl⟩ := Option.map_eq_some_iff.mp held
      obtain ⟨_, found', rfl⟩ := under.elems addr e found
      exact congrArg (Option.map Content.elem) found'
  | data addr =>
      obtain ⟨d, found, rfl⟩ := Option.map_eq_some_iff.mp held
      obtain ⟨_, found', rfl⟩ := under.datas addr d found
      exact congrArg (Option.map Content.data) found'

/-- Code stays where it is. -/
theorem Under.codeOf (under : s.Under s') {addr : Addr} (code : s.CodeOf id addr) :
    s'.CodeOf id addr := by
  obtain ⟨f, held, home⟩ := code
  obtain ⟨_, held', rfl⟩ := under.funcs addr _ held
  exact ⟨f, held', home⟩

/-- Something is added, and one instance gets what is new or nothing. -/
theorem Separate.add (separate : s.Separate) (under : s.Under s')
    (found : s.instances[id]? = some inst) {f : ModuleInstance → ModuleInstance}
    (changed : s'.instances = s.instances.modify id f)
    (code : ∀ addr ∈ (f inst).funcs, addr ∈ inst.funcs ∨ s'.CodeOf id addr)
    (more : ∀ addr ∈ inst.funcs, addr ∈ (f inst).funcs)
    (owns : ∀ cell, (f inst).Owns cell → inst.Owns cell ∨
      s.content? cell = none ∧ ∃ c, s'.content? cell = some c ∧ c.Within (f inst)) :
    s'.Separate := by
  have split : ∀ (k : InstanceId) (inst' : ModuleInstance), s'.instances[k]? = some inst' →
      k = id ∧ inst' = f inst ∨ k ≠ id ∧ s.instances[k]? = some inst' := by
    intro k inst' found'
    rw [changed, Array.getElem?_modify] at found'
    by_cases same : id = k
    · rw [if_pos same, ← same, found] at found'
      cases found'
      exact .inl ⟨same.symm, rfl⟩
    · rw [if_neg same] at found'
      exact .inr ⟨Ne.symm same, found'⟩
  -- A cell of another instance is not new, so the one that grows does not get it.
  have foreign : ∀ (k : InstanceId) (inst' : ModuleInstance), k ≠ id →
      s.instances[k]? = some inst' → ∀ cell, inst'.Owns cell → ¬ (f inst).Owns cell := by
    intro k inst' other found' cell own own'
    rcases owns cell own' with old | ⟨new, -⟩
    · exact separate.apart k id inst' inst found' found other cell own old
    · obtain ⟨c, held, -⟩ := separate.encloses k inst' found' cell own
      rw [new] at held
      cases held
  refine ⟨fun k inst' found' addr mem => ?_, fun k inst' found' cell own => ?_,
    fun k k' inst₁ inst₂ found₁ found₂ distinct cell own own' => ?_⟩
  · rcases split k inst' found' with ⟨rfl, rfl⟩ | ⟨-, found'⟩
    · rcases code addr mem with old | new
      · exact under.codeOf (separate.code k inst found addr old)
      · exact new
    · exact under.codeOf (separate.code k inst' found' addr mem)
  · rcases split k inst' found' with ⟨rfl, rfl⟩ | ⟨-, found'⟩
    · rcases owns cell own with old | ⟨-, new⟩
      · obtain ⟨c, held, within⟩ := separate.encloses k inst found cell old
        exact ⟨c, under.content held, within.mono more⟩
      · exact new
    · obtain ⟨c, held, within⟩ := separate.encloses k inst' found' cell own
      exact ⟨c, under.content held, within⟩
  · rcases split k inst₁ found₁ with ⟨rfl, rfl⟩ | ⟨other, found₁⟩
    · rcases split k' inst₂ found₂ with ⟨rfl, rfl⟩ | ⟨other, found₂⟩
      · exact distinct rfl
      · exact foreign k' inst₂ other found₂ cell own' own
    · rcases split k' inst₂ found₂ with ⟨rfl, rfl⟩ | ⟨-, found₂⟩
      · exact foreign k inst₁ other found₁ cell own own'
      · exact separate.apart k k' inst₁ inst₂ found₁ found₂ distinct cell own own'

/-- The same when no function is added. -/
theorem Separate.addCell (separate : s.Separate) (under : s.Under s')
    (found : s.instances[id]? = some inst) {f : ModuleInstance → ModuleInstance}
    (changed : s'.instances = s.instances.modify id f) (same : (f inst).funcs = inst.funcs)
    (owns : ∀ cell, (f inst).Owns cell → inst.Owns cell ∨
      s.content? cell = none ∧ ∃ c, s'.content? cell = some c ∧ c.Within inst) :
    s'.Separate := by
  have more : ∀ addr ∈ inst.funcs, addr ∈ (f inst).funcs := fun addr mem => same ▸ mem
  refine separate.add under found changed (fun addr mem => .inl (same ▸ mem)) more
    fun cell own => ?_
  rcases owns cell own with old | ⟨new, c, held, within⟩
  · exact .inl old
  · exact .inr ⟨new, c, held, within.mono more⟩

/-- Something is put behind a list of the store, and an instance gets its address. The cell
was not there before, and holds what was put there. -/
theorem pushed_cell {α : Type} (sort : α → Content) (items : Array α) (a : α) {addrs : Array Addr}
    {addr : Addr} (own : addr ∈ addrs.push items.size) (within : (sort a).Within inst) :
    addr ∈ addrs ∨ (items[addr]?).map sort = none ∧
      ∃ c, ((items.push a)[addr]?).map sort = some c ∧ c.Within inst := by
  rcases Array.mem_push.mp own with old | rfl
  · exact .inl old
  · rw [Array.getElem?_eq_none (Nat.le_refl _), Array.getElem?_push_size]
    exact .inr ⟨rfl, sort a, rfl, within⟩

/-- Each addition gives the instance that is being made what is new, and its references lead
to its own functions. -/
theorem Separate.addition (separate : s.Separate) (found : s.instances[id]? = some inst)
    (addition : s.Addition m id s') : s'.Separate := by
  have under := addition.under
  have encloses := separate.encloses id inst found
  cases addition with
  | @func index type body _ _ _ =>
      refine separate.add under found (instances_modifyInstance _ id _) (fun addr mem => ?_)
        (fun addr mem => Array.mem_push.mpr (.inl mem)) fun cell own => .inl ?_
      · rcases Array.mem_push.mp mem with old | rfl
        · exact .inl old
        · exact .inr ⟨_, Array.getElem?_push_size, rfl⟩
      · cases cell with
        | _ => exact own
  | table _ =>
      refine separate.addCell under found (instances_modifyInstance _ id _) rfl fun cell own => ?_
      cases cell with
      | table addr =>
          refine pushed_cell .table s.tables _ own fun r mem => ?_
          cases (Array.mem_replicate.mp mem).2
          trivial
      | _ => exact .inl own
  | memory _ =>
      refine separate.addCell under found (instances_modifyInstance _ id _) rfl fun cell own => ?_
      cases cell with
      | memory addr => exact pushed_cell .memory s.memories _ own trivial
      | _ => exact .inl own
  | global _ found' is _ =>
      cases found.symm.trans found'
      refine separate.addCell under found (instances_modifyInstance _ id _) rfl fun cell own => ?_
      cases cell with
      | global addr => exact pushed_cell .global s.globals _ own (encloses.constant is)
      | _ => exact .inl own
  | elem _ found' denote =>
      cases found.symm.trans found'
      refine separate.addCell under found (instances_modifyInstance _ id _) rfl fun cell own => ?_
      cases cell with
      | elem addr =>
          exact pushed_cell .elem s.elems _ own fun r mem => encloses.denotes (denote r mem)
      | _ => exact .inl own
  | data _ =>
      refine separate.addCell under found (instances_modifyInstance _ id _) rfl fun cell own => ?_
      cases cell with
      | data addr => exact pushed_cell .data s.datas _ own trivial
      | _ => exact .inl own
  | «export» _ _ _ =>
      refine separate.addCell under found (instances_modifyInstance _ id _) rfl fun cell own => .inl ?_
      cases cell with
      | _ => exact own

/-- An instance that has nothing stays out of the way of all others. -/
theorem Separate.addInstance (separate : s.Separate) (bare : ∀ cell, ¬ inst.Owns cell)
    (idle : inst.funcs = #[]) : (s.addInstance inst).2.Separate := by
  have split : ∀ (k : InstanceId) (inst' : ModuleInstance),
      (s.addInstance inst).2.instances[k]? = some inst' →
      inst' = inst ∨ s.instances[k]? = some inst' := by
    intro k inst' found
    simp only [Store.addInstance, Array.getElem?_push] at found
    split at found
    · cases found
      exact .inl rfl
    · exact .inr found
  refine ⟨fun k inst' found addr mem => ?_, fun k inst' found cell own => ?_,
    fun k k' inst₁ inst₂ found₁ found₂ distinct cell own own' => ?_⟩
  · rcases split k inst' found with rfl | found
    · rw [idle] at mem
      exact absurd mem (Array.not_mem_empty addr)
    · exact separate.code k inst' found addr mem
  · rcases split k inst' found with rfl | found
    · exact absurd own (bare cell)
    · obtain ⟨c, held, within⟩ := separate.encloses k inst' found cell own
      cases cell with
      | _ => exact ⟨c, held, within⟩
  · rcases split k inst₁ found₁ with rfl | found₁
    · exact bare cell own
    · rcases split k' inst₂ found₂ with rfl | found₂
      · exact bare cell own'
      · exact separate.apart k k' inst₁ inst₂ found₁ found₂ distinct cell own own'

/-! ## The course of an instantiation -/

/-- Making an instance that imports nothing keeps the instances apart, up to any stage. -/
theorem Made.separate {first : ModuleInstance} {stage : Stage} (made : s.Made m first stage s')
    (separate : s.Separate) (bare : ∀ cell, ¬ first.Owns cell) (idle : first.funcs = #[]) :
    s'.Separate := by
  induction made with
  | fresh => exact separate.addInstance bare idle
  | add made addition ih =>
      obtain ⟨inst, found⟩ := made.exists_instance
      exact ih.addition found addition
  | defined _ _ _ _ ih => exact ih
  | element _ _ found listed applies ih =>
      exact ih.appliesElement found (Array.mem_of_getElem? listed) applies
  | elements _ ih => exact ih
  | data _ _ found listed applies ih =>
      exact ih.appliesData found (Array.mem_of_getElem? listed) applies
  | datas _ ih => exact ih

/-! ## What was added for an instance -/

/-- A store has a cell. -/
def Has (s : Store) : Cell → Prop
  | .table addr => addr < s.tables.size
  | .memory addr => addr < s.memories.size
  | .global addr => addr < s.globals.size
  | .elem addr => addr < s.elems.size
  | .data addr => addr < s.datas.size

/-- A cell has come about on the way from a store to another one. -/
def Adds (s s' : Store) (cell : Cell) : Prop := ¬ s.Has cell ∧ s'.Has cell

theorem Under.has (under : s.Under s') {cell : Cell} (has : s.Has cell) : s'.Has cell := by
  cases cell with
  | table addr => exact Nat.lt_of_lt_of_le has under.tables.size_le
  | memory addr => exact Nat.lt_of_lt_of_le has under.memories.size_le
  | global addr => exact Nat.lt_of_lt_of_le has under.globals.size_le
  | elem addr => exact Nat.lt_of_lt_of_le has under.elems.size_le
  | data addr => exact Nat.lt_of_lt_of_le has under.datas.size_le

/-- On the way from a store to another one a new instance was put behind all others, and it
owns what has been added. -/
structure Furnishes (s s' : Store) : Prop where
  others : ∀ k, k ≠ s.instances.size → s'.instances[k]? = s.instances[k]?
  owns : ∀ inst, s'.instances[s.instances.size]? = some inst →
    ∀ cell, inst.Owns cell ↔ s.Adds s' cell
  kept : ∀ cell, s.Has cell → s'.Has cell

/-- What is added to a store is a cell of the instance that is being made. -/
theorem Addition.owns (addition : s.Addition m id s') : ∃ f,
    s'.instances = s.instances.modify id f ∧
      ∀ inst cell, (f inst).Owns cell ↔ inst.Owns cell ∨ s.Adds s' cell := by
  have pushed : ∀ {α : Type} (items : Array α) (a : α) (addr : Nat), addr = items.size ↔
      ¬ addr < items.size ∧ addr < (items.push a).size := by
    intro α items a addr
    rw [Array.size_push]
    omega
  cases addition with
  | _ =>
      refine ⟨_, instances_modifyInstance _ id _, fun inst cell => ?_⟩
      -- The instance gets one more cell of the kind that is added, and none of another kind.
      cases cell with
      | _ addr =>
          first
          | exact (or_iff_left fun added => added.1 added.2).symm
          | exact Array.mem_push.trans (or_congr_right (pushed _ _ addr))

theorem Furnishes.refl (s : Store) : s.Furnishes s where
  others _ _ := rfl
  owns inst found := by
    rw [Array.getElem?_eq_none (Nat.le_refl _)] at found
    cases found
  kept _ has := has

/-- A new instance starts with nothing. -/
theorem Furnishes.fresh (s : Store) (bare : ∀ cell, ¬ inst.Owns cell) :
    s.Furnishes (s.addInstance inst).2 where
  others k other := by
    show (s.instances.push inst)[k]? = _
    rw [Array.getElem?_push, if_neg other]
  owns inst' found cell := by
    cases Array.getElem?_push_size.symm.trans found
    refine iff_of_false (bare cell) ?_
    cases cell with
    | _ => exact fun added => added.1 added.2
  kept cell has := by
    cases cell with
    | _ => exact has

theorem Furnishes.add (furnishes : s.Furnishes s')
    (addition : s'.Addition m s.instances.size t) : s.Furnishes t := by
  obtain ⟨f, changed, owns⟩ := addition.owns
  refine ⟨fun k other => ?_, fun inst found cell => ?_,
    fun cell has => addition.under.has (furnishes.kept cell has)⟩
  · rw [changed, Array.getElem?_modify, if_neg (Ne.symm other)]
    exact furnishes.others k other
  · rw [changed, Array.getElem?_modify, if_pos rfl] at found
    obtain ⟨inst, there, rfl⟩ := Option.map_eq_some_iff.mp found
    rw [owns, furnishes.owns inst there]
    constructor
    · rintro (⟨absent, has⟩ | ⟨absent, has⟩)
      · exact ⟨absent, addition.under.has has⟩
      · exact ⟨fun has' => absent (furnishes.kept cell has'), has⟩
    · rintro ⟨absent, has⟩
      by_cases early : s'.Has cell
      · exact .inl ⟨absent, early⟩
      · exact .inr ⟨early, has⟩

/-- Running code neither adds nor takes away. -/
theorem Change.has (change : s.Change s') (cell : Cell) : s'.Has cell ↔ s.Has cell := by
  cases change with
  | _ =>
      cases cell with
      | _ =>
          simp [Has, Store.writeMemory, Store.growMemory, Store.dropData, Store.writeTable,
            Store.growTable, Store.dropElem, Store.writeGlobal, Store.keep]

theorem Furnishes.change (furnishes : s.Furnishes s') (change : s'.Change t) : s.Furnishes t where
  others k other := change.instances ▸ furnishes.others k other
  owns inst found cell := by
    rw [change.instances] at found
    rw [furnishes.owns inst found, Adds, Adds, change.has cell]
  kept cell has := (change.has cell).mpr (furnishes.kept cell has)

theorem separate_empty : ({} : Store).Separate where
  code _ _ found := nomatch found
  encloses _ _ found := nomatch found
  apart _ _ _ _ found := nomatch found

end Store

end WasmMachine
