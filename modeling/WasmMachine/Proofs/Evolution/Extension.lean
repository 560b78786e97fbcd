/-
# A store only extends

An address is a position in a list of the store, and nothing is ever taken out of the
store: what is at an address now is there later, with the same type, at least as large, and
with the same value if it cannot be written.  A segment is as it was or empty.  This file
says so for each change that running code makes and for each addition of the linker; nothing
is asked of the code or of the module.
-/

import WasmMachine.Proofs.Evolution.Run
import WasmMachine.Proofs.Linking.Course

namespace WasmMachine

/-! ## Lists that items stay in -/

/-- Each item of an array is still found at its place in another one, as something that it
may have become. -/
def Persists {α : Type} (Becomes : α → α → Prop) (items items' : Array α) : Prop :=
  ∀ (i : Nat) (a : α), items[i]? = some a → ∃ a', items'[i]? = some a' ∧ Becomes a a'

namespace Persists

variable {α : Type} {Becomes : α → α → Prop} {items items' items'' : Array α}

theorem refl (same : ∀ a, Becomes a a) (items : Array α) : Persists Becomes items items :=
  fun _ a found => ⟨a, found, same a⟩

theorem trans (both : ∀ {a b c}, Becomes a b → Becomes b c → Becomes a c)
    (first : Persists Becomes items items') (second : Persists Becomes items' items'') :
    Persists Becomes items items'' := by
  intro i a found
  obtain ⟨a', found', before⟩ := first i a found
  obtain ⟨a'', found'', after⟩ := second i a' found'
  exact ⟨a'', found'', both before after⟩

theorem size_le (persists : Persists Becomes items items') : items.size ≤ items'.size := by
  by_contra shorter
  have inside : items'.size < items.size := Nat.lt_of_not_le shorter
  obtain ⟨a, found, -⟩ := persists _ _ (Array.getElem?_eq_getElem inside)
  rw [Array.getElem?_eq_none (Nat.le_refl _)] at found
  cases found

theorem push (same : ∀ a, Becomes a a) (items : Array α) (a : α) :
    Persists Becomes items (items.push a) := by
  intro i b found
  obtain ⟨inside, -⟩ := Array.getElem?_eq_some_iff.mp found
  refine ⟨b, ?_, same b⟩
  rw [Array.getElem?_push, if_neg (Nat.ne_of_lt inside)]
  exact found

theorem modify (same : ∀ a, Becomes a a) {place : Nat} {f : α → α}
    (changed : ∀ a, items[place]? = some a → Becomes a (f a)) :
    Persists Becomes items (items.modify place f) := by
  intro i a found
  rw [Array.getElem?_modify]
  by_cases here : place = i
  · subst here
    rw [if_pos rfl, found]
    exact ⟨f a, rfl, changed a found⟩
  · rw [if_neg here]
    exact ⟨a, found, same a⟩

theorem trans_eq {items'' : Array α} (first : Persists Becomes items items')
    (second : Persists Eq items' items'') : Persists Becomes items items'' := by
  intro i a found
  obtain ⟨a', found', becomes⟩ := first i a found
  obtain ⟨_, found'', rfl⟩ := second i a' found'
  exact ⟨a', found'', becomes⟩

theorem getElem?_eq (persists : Persists Eq items items') {i : Nat} (inside : i < items.size) :
    items'[i]? = items[i]? := by
  have found := Array.getElem?_eq_getElem inside
  obtain ⟨_, found', rfl⟩ := persists i _ found
  exact found'.trans found.symm

/-- A change behind what was there is of no account. -/
theorem modify_behind (persists : Persists Becomes items items') {place : Nat}
    (behind : items.size ≤ place) (f : α → α) :
    Persists Becomes items (items'.modify place f) := by
  intro i a found
  obtain ⟨inside, -⟩ := Array.getElem?_eq_some_iff.mp found
  rw [Array.getElem?_modify, if_neg (Nat.ne_of_gt (Nat.lt_of_lt_of_le inside behind))]
  exact persists i a found

end Persists

/-! ## What things become -/

/-- A table at a later time. -/
structure TableInst.Becomes (t t' : TableInst) : Prop where
  type : t'.type = t.type
  size : t.elems.size ≤ t'.elems.size

/-- A memory at a later time. -/
structure MemInst.Becomes (m m' : MemInst) : Prop where
  type : m'.type = m.type
  size : m.data.size ≤ m'.data.size

/-- A global at a later time. -/
structure GlobalInst.Becomes (g g' : GlobalInst) : Prop where
  type : g'.type = g.type
  value : g.type.mutable = false → g'.value = g.value

/-- An element segment at a later time. -/
structure ElemInst.Becomes (e e' : ElemInst) : Prop where
  type : e'.type = e.type
  refs : e'.refs = e.refs ∨ e'.refs = []

/-- A data segment at a later time. -/
def DataInst.Becomes (d d' : DataInst) : Prop := d'.data = d.data ∨ d'.data = []

namespace Store

/-- Everything in a store is at its address in another one, as something that it may have
become. Of instances nothing is said. -/
structure Retains (s s' : Store) : Prop where
  funcs : Persists Eq s.funcs s'.funcs
  tables : Persists TableInst.Becomes s.tables s'.tables
  memories : Persists MemInst.Becomes s.memories s'.memories
  globals : Persists GlobalInst.Becomes s.globals s'.globals
  elems : Persists ElemInst.Becomes s.elems s'.elems
  datas : Persists DataInst.Becomes s.datas s'.datas

/-- And the instances are as they were. -/
structure Extends (s s' : Store) : Prop extends s.Retains s' where
  instances : Persists Eq s.instances s'.instances

variable {s s' s'' : Store}

theorem Retains.refl (s : Store) : s.Retains s where
  funcs := .refl (fun _ => rfl) _
  tables := .refl (fun _ => ⟨rfl, Nat.le_refl _⟩) _
  memories := .refl (fun _ => ⟨rfl, Nat.le_refl _⟩) _
  globals := .refl (fun _ => ⟨rfl, fun _ => rfl⟩) _
  elems := .refl (fun _ => ⟨rfl, .inl rfl⟩) _
  datas := .refl (fun _ => .inl rfl) _

theorem Extends.refl (s : Store) : s.Extends s where
  toRetains := .refl s
  instances := .refl (fun _ => rfl) _

end Store

theorem TableInst.Becomes.trans {t t' t'' : TableInst} (first : t.Becomes t')
    (second : t'.Becomes t'') : t.Becomes t'' :=
  ⟨second.type.trans first.type, Nat.le_trans first.size second.size⟩

theorem MemInst.Becomes.trans {m m' m'' : MemInst} (first : m.Becomes m')
    (second : m'.Becomes m'') : m.Becomes m'' :=
  ⟨second.type.trans first.type, Nat.le_trans first.size second.size⟩

theorem GlobalInst.Becomes.trans {g g' g'' : GlobalInst} (first : g.Becomes g')
    (second : g'.Becomes g'') : g.Becomes g'' := by
  refine ⟨second.type.trans first.type, fun immutable => ?_⟩
  rw [second.value (first.type ▸ immutable), first.value immutable]

theorem ElemInst.Becomes.trans {e e' e'' : ElemInst} (first : e.Becomes e')
    (second : e'.Becomes e'') : e.Becomes e'' := by
  refine ⟨second.type.trans first.type, second.refs.elim (fun same => ?_) .inr⟩
  rw [same]
  exact first.refs

theorem DataInst.Becomes.trans {d d' d'' : DataInst} (first : d.Becomes d')
    (second : d'.Becomes d'') : d.Becomes d'' := by
  refine Or.elim second (fun same => ?_) .inr
  unfold DataInst.Becomes
  rw [same]
  exact first

theorem MemInst.type_grow (m : MemInst) (count : Nat) : (m.grow count).type = m.type := rfl

/-- What growing adds to the bytes of a memory. -/
theorem MemInst.size_grow (m : MemInst) (count : Nat) :
    (m.grow count).data.size = m.data.size + count * pageSize := by
  rw [grow_eq]
  exact Cells.size_append m.data (count * pageSize) 0

namespace Store

variable {s s' s'' : Store}

theorem Retains.trans (first : s.Retains s') (second : s'.Retains s'') : s.Retains s'' where
  funcs := first.funcs.trans Eq.trans second.funcs
  tables := first.tables.trans .trans second.tables
  memories := first.memories.trans .trans second.memories
  globals := first.globals.trans .trans second.globals
  elems := first.elems.trans .trans second.elems
  datas := first.datas.trans .trans second.datas

theorem Extends.trans (first : s.Extends s') (second : s'.Extends s'') : s.Extends s'' where
  toRetains := first.toRetains.trans second.toRetains
  instances := first.instances.trans Eq.trans second.instances

/-! ## Running code -/

theorem retains_writeMemory (s : Store) (addr : Addr) (start : Nat) (bytes : List UInt8) :
    s.Retains (s.writeMemory addr start bytes) :=
  { Retains.refl s with
    memories := .modify (fun _ => ⟨rfl, Nat.le_refl _⟩)
      fun m _ => ⟨rfl, Nat.le_of_eq (m.size_write start bytes).symm⟩ }

theorem retains_growMemory (s : Store) (addr : Addr) (count : Nat) :
    s.Retains (s.growMemory addr count) :=
  { Retains.refl s with
    memories := .modify (fun _ => ⟨rfl, Nat.le_refl _⟩)
      fun m _ => ⟨m.type_grow count, Nat.le.intro (m.size_grow count).symm⟩ }

theorem retains_dropData (s : Store) (addr : Addr) : s.Retains (s.dropData addr) :=
  { Retains.refl s with datas := .modify (fun _ => .inl rfl) fun _ _ => .inr rfl }

theorem retains_writeTable (s : Store) (addr : Addr) (start : Nat) (refs : List Ref) :
    s.Retains (s.writeTable addr start refs) :=
  { Retains.refl s with
    tables := .modify (fun _ => ⟨rfl, Nat.le_refl _⟩)
      fun t _ => ⟨rfl, Nat.le_of_eq (Cells.size_overwrite t.elems start refs).symm⟩ }

theorem retains_growTable (s : Store) (addr : Addr) (count : Nat) (r : Ref) :
    s.Retains (s.growTable addr count r) :=
  { Retains.refl s with
    tables := .modify (fun _ => ⟨rfl, Nat.le_refl _⟩)
      fun t _ => ⟨rfl, Nat.le.intro (Cells.size_append t.elems _ r).symm⟩ }

theorem retains_dropElem (s : Store) (addr : Addr) : s.Retains (s.dropElem addr) :=
  { Retains.refl s with elems := .modify (fun _ => ⟨rfl, .inl rfl⟩) fun _ _ => ⟨rfl, .inr rfl⟩ }

/-- Only a mutable global may be written. -/
theorem retains_writeGlobal {addr : Addr} {g : GlobalInst} (found : s.globals[addr]? = some g)
    (mutable : g.type.mutable = true) (v : Value) : s.Retains (s.writeGlobal addr v) :=
  { Retains.refl s with
    globals := .modify (fun _ => ⟨rfl, fun _ => rfl⟩) fun g' found' => by
      obtain rfl : g = g' := Option.some.inj (found.symm.trans found')
      exact ⟨rfl, fun immutable => absurd (mutable.symm.trans immutable) (by decide)⟩ }

theorem Change.retains (change : s.Change s') : s.Retains s' := by
  cases change with
  | writeMemory addr start bytes => exact s.retains_writeMemory addr start bytes
  | growMemory _ _ => exact s.retains_growMemory _ _
  | dropData addr => exact s.retains_dropData addr
  | writeTable addr start refs => exact s.retains_writeTable addr start refs
  | growTable r _ _ => exact s.retains_growTable _ _ r
  | dropElem addr => exact s.retains_dropElem addr
  | writeGlobal found _ mutable => exact retains_writeGlobal found mutable _
  | keep name values => exact { Retains.refl s with }

theorem Change.instances (change : s.Change s') : s'.instances = s.instances := by
  cases change with
  | _ => rfl

theorem Evolves.retains (evolves : s.Evolves s') : s.Retains s' :=
  evolves.keeps (P := fun t => s.Retains t)
    (fun _ _ change retains => retains.trans change.retains) (.refl s)

theorem Evolves.instances (evolves : s.Evolves s') : s'.instances = s.instances :=
  evolves.keeps (P := fun t => t.instances = s.instances)
    (fun _ _ change same => change.instances.trans same) rfl

/-! ## Adding -/

theorem retains_addFunc (s : Store) (f : FuncInst) : s.Retains (s.addFunc f).2 :=
  { Retains.refl s with funcs := .push (fun _ => rfl) _ f }

theorem retains_addTable (s : Store) (t : TableType) : s.Retains (s.addTable t).2 :=
  { Retains.refl s with tables := .push (fun _ => ⟨rfl, Nat.le_refl _⟩) _ _ }

theorem retains_addMemory (s : Store) (t : MemoryType) : s.Retains (s.addMemory t).2 :=
  { Retains.refl s with memories := .push (fun _ => ⟨rfl, Nat.le_refl _⟩) _ _ }

theorem retains_addGlobal (s : Store) (t : GlobalType) (v : Value) :
    s.Retains (s.addGlobal t v).2 :=
  { Retains.refl s with globals := .push (fun _ => ⟨rfl, fun _ => rfl⟩) _ _ }

theorem retains_addElem (s : Store) (t : ValType) (refs : List Ref) :
    s.Retains (s.addElem t refs).2 :=
  { Retains.refl s with elems := .push (fun _ => ⟨rfl, .inl rfl⟩) _ _ }

theorem retains_addData (s : Store) (data : List UInt8) : s.Retains (s.addData data).2 :=
  { Retains.refl s with datas := .push (fun _ => .inl rfl) _ _ }

theorem extends_addInstance (s : Store) (inst : ModuleInstance) :
    s.Extends (s.addInstance inst).2 :=
  { Extends.refl s with instances := .push (fun _ => rfl) _ inst }

/-- Of instances nothing is said. -/
theorem Retains.modifyInstance (retains : s.Retains s') (id : InstanceId)
    (f : ModuleInstance → ModuleInstance) : s.Retains (s'.modifyInstance id f) := { retains with }

theorem Addition.retains {m : Module} {id : InstanceId} (addition : s.Addition m id s') :
    s.Retains s' := by
  cases addition with
  | func _ _ _ => exact (s.retains_addFunc _).modifyInstance id _
  | table _ => exact (s.retains_addTable _).modifyInstance id _
  | memory _ => exact (s.retains_addMemory _).modifyInstance id _
  | global _ _ _ _ => exact (s.retains_addGlobal _ _).modifyInstance id _
  | elem _ _ _ => exact (s.retains_addElem _ _).modifyInstance id _
  | data _ => exact (s.retains_addData _).modifyInstance id _
  | «export» _ _ _ => exact (Retains.refl s).modifyInstance id _

/-- What is added while an instance is made leaves all earlier instances alone. -/
theorem Extends.add {m : Module} (ext : s.Extends s')
    (addition : s'.Addition m s.instances.size s'') : s.Extends s'' where
  toRetains := ext.toRetains.trans addition.retains
  instances := by
    intro id inst found
    obtain ⟨inside, -⟩ := Array.getElem?_eq_some_iff.mp found
    obtain ⟨f, same⟩ := addition.instances
    rw [same, Array.getElem?_modify, if_neg (Nat.ne_of_gt inside)]
    exact ext.instances id inst found

theorem Extends.evolve (ext : s.Extends s') (evolves : s'.Evolves s'') : s.Extends s'' where
  toRetains := ext.toRetains.trans evolves.retains
  instances := evolves.instances ▸ ext.instances

/-! ## Making an instance -/

theorem AppliesElement.evolves {inst : ModuleInstance} {e : Element} {segment : Addr}
    (applies : s.AppliesElement inst e segment s') : s.Evolves s' := by
  cases applies with
  | active _ _ _ _ => exact .trans (.of_change (.writeTable _ _ _)) (.of_change (.dropElem _))
  | declarative _ => exact .of_change (.dropElem _)
  | passive _ _ => exact .refl s

theorem AppliesData.evolves {inst : ModuleInstance} {d : DataSegment} {segment : Addr}
    (applies : s.AppliesData inst d segment s') : s.Evolves s' := by
  cases applies with
  | active _ _ _ _ => exact .trans (.of_change (.writeMemory _ _ _)) (.of_change (.dropData _))
  | passive _ => exact .refl s

/-- What holds of the store with the fresh instance, and is kept by additions and by changes
of running code, holds on the whole way to the instance. -/
theorem Made.keeps {P : Store → Prop} {m : Module} {first : ModuleInstance} {stage : Stage}
    (made : s.Made m first stage s') (fresh : P (s.addInstance first).2)
    (add : ∀ t t', P t → t.Addition m s.instances.size t' → P t')
    (evolve : ∀ t t', P t → t.Evolves t' → P t') : P s' := by
  induction made with
  | fresh => exact fresh
  | add _ addition ih => exact add _ _ ih addition
  | defined _ _ _ _ ih => exact ih
  | element _ _ _ _ applies ih => exact evolve _ _ ih applies.evolves
  | elements _ ih => exact ih
  | data _ _ _ _ applies ih => exact evolve _ _ ih applies.evolves
  | datas _ ih => exact ih

end Store

end WasmMachine
