/-
# Typed stores

While code runs a store keeps its shape: which functions and instances there are, and
the types of tables, globals and segments.  What it holds changes, but everything in it
has the type that its place promises.  An instance serves the checker's context when
its addresses lead to what the context lists.
-/

import WasmMachine.Proofs.Memory.Requests
import WasmMachine.Proofs.Safety.Values

namespace WasmMachine

open Typing

/-! ## Shapes -/

/-- The addresses behind the indices of an instance, without the exports. -/
def ModuleInstance.spaces (inst : ModuleInstance) : ModuleInstance := { inst with exports := [] }

/-- What running code leaves as it is. Of memories and data segments only the number
matters. -/
structure Shape where
  funcs : List FuncInst
  tables : List ValType
  memories : List Unit
  globals : List GlobalType
  elems : List ValType
  datas : List Unit
  instances : List ModuleInstance

/-- The number of functions. -/
abbrev Shape.size (σ : Shape) : Nat := σ.funcs.length

/-- The shape of a store. -/
def Store.shape (s : Store) : Shape where
  funcs := s.funcs.toList
  tables := s.tables.toList.map (·.type.elem)
  memories := s.memories.toList.map fun _ => ()
  globals := s.globals.toList.map (·.type)
  elems := s.elems.toList.map (·.type)
  datas := s.datas.toList.map fun _ => ()
  instances := s.instances.toList.map (·.spaces)

/-- Everything in a store has the type of its place, for references into `n` functions, and
what host functions keep means something. Of a table of another type than a reference type
nothing is said. -/
structure Store.Typed (n : Nat) (s : Store) : Prop where
  tables : ∀ (addr : Addr) (t : TableInst), s.tables[addr]? = some t → t.type.elem.isRef →
    ∀ r ∈ t.elems, (Value.ref r).Has n t.type.elem
  globals : ∀ (addr : Addr) (g : GlobalInst), s.globals[addr]? = some g → g.value.Has n g.type.type
  elems : ∀ (addr : Addr) (e : ElemInst), s.elems[addr]? = some e →
    ∀ r ∈ e.refs, (Value.ref r).Has n e.type
  kept : ∀ entry ∈ s.kept, ∀ v ∈ entry.2, v.Valid n

/-- A typed store of a shape. -/
structure Store.Of (σ : Shape) (s : Store) : Prop where
  shape : s.shape = σ
  typed : s.Typed σ.size

theorem Store.Typed.mono {s : Store} {n n' : Nat} (typed : s.Typed n) (grows : n ≤ n') :
    s.Typed n' where
  tables addr t found reference r mem := (typed.tables addr t found reference r mem).mono grows
  globals addr g found := (typed.globals addr g found).mono grows
  elems addr e found r mem := (typed.elems addr e found r mem).mono grows
  kept entry mem v held := (typed.kept entry mem v held).mono grows

private theorem exists_of_map {α β : Type} {items : Array α} {part : α → β} {addr : Addr} {b : β}
    (found : (items.toList.map part)[addr]? = some b) :
    ∃ a, items[addr]? = some a ∧ part a = b := by
  rw [List.getElem?_map, Array.getElem?_toList] at found
  exact Option.map_eq_some_iff.mp found

/-- The shape of a store knows which globals there are. -/
theorem Store.exists_global {s : Store} {addr : Addr} {type : GlobalType}
    (found : s.shape.globals[addr]? = some type) :
    ∃ g, s.globals[addr]? = some g ∧ g.type = type := exists_of_map found

/-- And which instances, apart from what they export. -/
theorem Store.exists_instance {s : Store} {id : InstanceId} {spaces : ModuleInstance}
    (found : s.shape.instances[id]? = some spaces) :
    ∃ inst, s.instances[id]? = some inst ∧ inst.spaces = spaces := exists_of_map found

namespace Store.Of

variable {σ : Shape} {s : Store}

theorem func (of : s.Of σ) (addr : Addr) : s.funcs[addr]? = σ.funcs[addr]? := by
  rw [← of.shape]
  exact Array.getElem?_toList.symm

variable {addr : Addr}

theorem instance_ {inst : ModuleInstance} (of : s.Of σ) (found : σ.instances[addr]? = some inst) :
    ∃ full, s.instances[addr]? = some full ∧ full.spaces = inst := by
  rw [← of.shape] at found
  exact exists_instance found

theorem table {elem : ValType} (of : s.Of σ) (found : σ.tables[addr]? = some elem) :
    ∃ t, s.tables[addr]? = some t ∧ t.type.elem = elem := by
  rw [← of.shape] at found
  exact exists_of_map found

theorem memory {u : Unit} (of : s.Of σ) (found : σ.memories[addr]? = some u) :
    ∃ m, s.memories[addr]? = some m := by
  rw [← of.shape] at found
  obtain ⟨m, found, -⟩ := exists_of_map found
  exact ⟨m, found⟩

theorem global {type : GlobalType} (of : s.Of σ) (found : σ.globals[addr]? = some type) :
    ∃ g, s.globals[addr]? = some g ∧ g.type = type := by
  rw [← of.shape] at found
  exact exists_global found

theorem elem {type : ValType} (of : s.Of σ) (found : σ.elems[addr]? = some type) :
    ∃ e, s.elems[addr]? = some e ∧ e.type = type := by
  rw [← of.shape] at found
  exact exists_of_map found

theorem data {u : Unit} (of : s.Of σ) (found : σ.datas[addr]? = some u) :
    ∃ d, s.datas[addr]? = some d := by
  rw [← of.shape] at found
  obtain ⟨d, found, -⟩ := exists_of_map found
  exact ⟨d, found⟩

end Store.Of

/-! ## Writing -/

/-- A property of the items of an array that a change of one of them keeps. -/
theorem forall_modify {α : Type} {P : α → Prop} {items : Array α} {place : Nat} {f : α → α}
    (holds : ∀ (i : Nat) (item : α), items[i]? = some item → P item)
    (changed : ∀ item, items[place]? = some item → P item → P (f item)) :
    ∀ (i : Nat) (item : α), (items.modify place f)[i]? = some item → P item := by
  intro i item found
  rw [Array.getElem?_modify] at found
  split at found
  · next here =>
      subst here
      obtain ⟨old, there, rfl⟩ := Option.map_eq_some_iff.mp found
      exact changed old there (holds place old there)
  · exact holds i item found

/-- What a change leaves alone of each item it leaves alone of all of them. -/
private theorem map_toList_modify {α β : Type} {items : Array α} {at_ : Nat} {f : α → α}
    {part : α → β} (same : ∀ item, part (f item) = part item) :
    (items.modify at_ f).toList.map part = items.toList.map part := by
  apply List.ext_getElem?
  intro i
  simp only [List.getElem?_map, Array.getElem?_toList, Array.getElem?_modify]
  split
  · simp [Function.comp_def, same]
  · rfl

/-- A property of the cells of an array and of the items that are put into it. -/
theorem Cells.forall_overwrite {α : Type} {P : α → Prop} {cells : Array α} {start : Nat}
    {items : List α} (old : ∀ a ∈ cells, P a) (new : ∀ a ∈ items, P a) :
    ∀ a ∈ Cells.overwrite cells start items, P a := by
  induction items generalizing cells start with
  | nil => exact old
  | cons item rest ih =>
      apply ih
      · intro a mem
        rcases Array.mem_or_eq_of_mem_setIfInBounds mem with mem | rfl
        · exact old a mem
        · exact new a List.mem_cons_self
      · exact fun a mem => new a (List.mem_cons_of_mem _ mem)

theorem Cells.mem_of_read? {α : Type} {cells : Array α} {start count : Nat} {items : List α}
    (found : Cells.read? cells start count = some items) {a : α} (mem : a ∈ items) : a ∈ cells := by
  unfold Cells.read? at found
  split at found
  · cases found
    rw [Array.mem_toList_iff, Array.mem_extract_iff_getElem] at mem
    obtain ⟨i, inside, rfl⟩ := mem
    exact Array.getElem_mem _
  · cases found

namespace Store

variable (s : Store) (addr : Addr)

theorem shape_writeMemory (start : Nat) (bytes : List UInt8) :
    (s.writeMemory addr start bytes).shape = s.shape := by
  refine congrArg (fun kept => { s.shape with memories := kept }) (map_toList_modify ?_)
  exact fun _ => rfl

theorem shape_growMemory (count : Nat) : (s.growMemory addr count).shape = s.shape := by
  refine congrArg (fun kept => { s.shape with memories := kept }) (map_toList_modify ?_)
  exact fun _ => rfl

theorem shape_dropData : (s.dropData addr).shape = s.shape := by
  refine congrArg (fun kept => { s.shape with datas := kept }) (map_toList_modify ?_)
  exact fun _ => rfl

theorem shape_writeTable (start : Nat) (refs : List Ref) :
    (s.writeTable addr start refs).shape = s.shape := by
  refine congrArg (fun kept => { s.shape with tables := kept }) (map_toList_modify ?_)
  exact fun _ => rfl

theorem shape_growTable (count : Nat) (r : Ref) : (s.growTable addr count r).shape = s.shape := by
  refine congrArg (fun kept => { s.shape with tables := kept }) (map_toList_modify ?_)
  exact fun _ => rfl

theorem shape_writeGlobal (v : Value) : (s.writeGlobal addr v).shape = s.shape := by
  refine congrArg (fun kept => { s.shape with globals := kept }) (map_toList_modify ?_)
  exact fun _ => rfl

theorem shape_dropElem : (s.dropElem addr).shape = s.shape := by
  refine congrArg (fun kept => { s.shape with elems := kept }) (map_toList_modify ?_)
  exact fun _ => rfl

/-- An instance may change where its shape does not. -/
theorem shape_modifyInstance (id : InstanceId) {f : ModuleInstance → ModuleInstance}
    (same : ∀ inst, (f inst).spaces = inst.spaces) : (s.modifyInstance id f).shape = s.shape :=
  congrArg (fun kept => { s.shape with instances := kept }) (map_toList_modify same)

end Store

namespace Store.Of

variable {σ : Shape} {s : Store} {addr : Addr}

theorem writeMemory (of : s.Of σ) (start : Nat) (bytes : List UInt8) :
    (s.writeMemory addr start bytes).Of σ where
  shape := (s.shape_writeMemory addr start bytes).trans of.shape
  typed := ⟨of.typed.tables, of.typed.globals, of.typed.elems, of.typed.kept⟩

theorem growMemory (of : s.Of σ) (count : Nat) : (s.growMemory addr count).Of σ where
  shape := (s.shape_growMemory addr count).trans of.shape
  typed := ⟨of.typed.tables, of.typed.globals, of.typed.elems, of.typed.kept⟩

theorem dropData (of : s.Of σ) : (s.dropData addr).Of σ where
  shape := (s.shape_dropData addr).trans of.shape
  typed := ⟨of.typed.tables, of.typed.globals, of.typed.elems, of.typed.kept⟩

/-- References of the type of a table may be put into it. -/
theorem writeTable {elem : ValType} (of : s.Of σ) (found : σ.tables[addr]? = some elem)
    (start : Nat) {refs : List Ref} (fine : ∀ r ∈ refs, (Value.ref r).Has σ.size elem) :
    (s.writeTable addr start refs).Of σ where
  shape := (s.shape_writeTable addr start refs).trans of.shape
  typed := by
    obtain ⟨own, there, rfl⟩ := of.table found
    refine ⟨forall_modify of.typed.tables ?_, of.typed.globals, of.typed.elems, of.typed.kept⟩
    intro t found holds reference
    obtain rfl : own = t := Option.some.inj (there.symm.trans found)
    exact Cells.forall_overwrite (holds reference) fine

theorem growTable {elem : ValType} (of : s.Of σ) (found : σ.tables[addr]? = some elem)
    (count : Nat) {r : Ref} (fine : (Value.ref r).Has σ.size elem) :
    (s.growTable addr count r).Of σ where
  shape := (s.shape_growTable addr count r).trans of.shape
  typed := by
    obtain ⟨own, there, rfl⟩ := of.table found
    refine ⟨forall_modify of.typed.tables ?_, of.typed.globals, of.typed.elems, of.typed.kept⟩
    intro t found holds reference x mem
    obtain rfl : own = t := Option.some.inj (there.symm.trans found)
    rcases Array.mem_append.mp mem with mem | mem
    · exact holds reference x mem
    · obtain ⟨-, rfl⟩ := Array.mem_replicate.mp mem
      exact fine

/-- A value of the type of a global may be put into it. -/
theorem writeGlobal {type : GlobalType} {v : Value} (of : s.Of σ)
    (found : σ.globals[addr]? = some type) (fine : v.Has σ.size type.type) :
    (s.writeGlobal addr v).Of σ where
  shape := (s.shape_writeGlobal addr v).trans of.shape
  typed := by
    obtain ⟨own, there, rfl⟩ := of.global found
    refine ⟨of.typed.tables, forall_modify of.typed.globals ?_, of.typed.elems, of.typed.kept⟩
    intro g found _
    obtain rfl : own = g := Option.some.inj (there.symm.trans found)
    exact fine

theorem dropElem (of : s.Of σ) : (s.dropElem addr).Of σ where
  shape := (s.shape_dropElem addr).trans of.shape
  typed := by
    refine ⟨of.typed.tables, of.typed.globals, forall_modify of.typed.elems ?_, of.typed.kept⟩
    exact fun _ _ _ r mem => nomatch mem

/-- An instance may change where its shape does not. -/
theorem modifyInstance (of : s.Of σ) (id : InstanceId) {f : ModuleInstance → ModuleInstance}
    (same : ∀ inst, (f inst).spaces = inst.spaces) : (s.modifyInstance id f).Of σ where
  shape := (s.shape_modifyInstance id same).trans of.shape
  typed := ⟨of.typed.tables, of.typed.globals, of.typed.elems, of.typed.kept⟩

end Store.Of

/-! ## Host functions -/

/-- What is retrieved was kept. -/
theorem Store.Typed.retrieve {s : Store} {n : Nat} (typed : s.Typed n) (name : String) :
    ∀ v ∈ s.retrieve name, v.Valid n := by
  intro v mem
  unfold Store.retrieve at mem
  cases found : s.kept.lookup name with
  | none =>
      rw [found] at mem
      cases mem
  | some values =>
      rw [found] at mem
      obtain ⟨before, behind, is, -⟩ := List.lookup_eq_some_iff.mp found
      exact typed.kept (name, values) (is ▸ List.mem_append_right _ List.mem_cons_self) v mem

namespace Store.Of

variable {σ : Shape} {s : Store}

/-- Host functions may keep what means something. -/
theorem keep (of : s.Of σ) (name : String) {values : List Value}
    (valid : ∀ v ∈ values, v.Valid σ.size) : (s.keep name values).Of σ where
  shape := of.shape
  typed := by
    refine ⟨of.typed.tables, of.typed.globals, of.typed.elems, ?_⟩
    intro entry mem
    rcases List.mem_cons.mp mem with rfl | old
    · exact valid
    · exact of.typed.kept entry (List.mem_filter.mp old).1

/-- And they may use views. -/
theorem viewed (of : s.Of σ) {s' : Store} (viewed : s.Viewed s') : s'.Of σ := by
  cases viewed with
  | same => exact of
  | write addr start bytes => exact of.writeMemory start bytes
  | grow _ _ => exact of.growMemory _

end Store.Of

/-! ## Instances and contexts -/

/-- The addresses of an index space lead to what the checker knows of it. -/
abbrev Leads {α : Type} (items : List α) (addrs : Array Addr) (space : List α) : Prop :=
  List.Forall₂ (fun addr a => items[addr]? = some a) addrs.toList space

/-- An instance has behind its indices what a context lists. -/
structure Shape.Serves (σ : Shape) (inst : ModuleInstance) (ctx : Context) : Prop where
  types : inst.types = ctx.types
  funcs : Leads (σ.funcs.map (·.type)) inst.funcs ctx.funcs
  tables : Leads σ.tables inst.tables (ctx.tables.map (·.elem))
  memories : Leads σ.memories inst.memories (ctx.memories.map fun _ => ())
  globals : Leads σ.globals inst.globals ctx.globals
  elems : Leads σ.elems inst.elems ctx.elements
  datas : Leads σ.datas inst.datas (List.replicate ctx.dataCount ())

/-- The address behind an index, and what is there. -/
theorem Leads.lookup {α : Type} {items space : List α} {addrs : Array Addr}
    (leads : Leads items addrs space) {i : Nat} {a : α} (known : space[i]? = some a) :
    ∃ addr, addrs[i]? = some addr ∧ items[addr]? = some a := by
  obtain ⟨addr, found, leads⟩ := exists_getElem?_of_forall₂ leads known
  rw [Array.getElem?_toList] at found
  exact ⟨addr, found, leads⟩

end WasmMachine
