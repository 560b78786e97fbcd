/-
# Growing stores

What is added to a store comes behind what is there, so addresses keep their meaning:
instances go on serving their contexts and checked code stays checked.  A store is ready
to run code when everything in it has the type of its place and all its code is checked.
-/

import WasmMachine.Proofs.Safety.Machine

namespace WasmMachine

open Typing

/-! ## Addresses keep their meaning -/

theorem Leads.mono {α : Type} {items more space : List α} {addrs : Array Addr}
    (leads : Leads items addrs space) (within : items <+: more) : Leads more addrs space := by
  obtain ⟨rest, rfl⟩ := within
  refine leads.imp fun addr a found => ?_
  obtain ⟨inside, -⟩ := List.getElem?_eq_some_iff.mp found
  rw [List.getElem?_append_left inside]
  exact found

/-- An address that is found behind the others of its kind. -/
theorem Leads.push {α : Type} {items space : List α} {addrs : Array Addr} {addr : Addr} {a : α}
    (leads : Leads items addrs space) (found : items[addr]? = some a) :
    Leads items (addrs.push addr) (space ++ [a]) := by
  unfold Leads
  rw [Array.toList_push]
  exact List.rel_append leads (.cons found .nil)

namespace Shape

/-- One shape is the beginning of another in every respect. -/
structure Within (σ τ : Shape) : Prop where
  funcs : σ.funcs <+: τ.funcs
  tables : σ.tables <+: τ.tables
  memories : σ.memories <+: τ.memories
  globals : σ.globals <+: τ.globals
  elems : σ.elems <+: τ.elems
  datas : σ.datas <+: τ.datas
  instances : σ.instances <+: τ.instances

variable {σ τ υ : Shape}

theorem Within.refl (σ : Shape) : σ.Within σ :=
  ⟨List.prefix_rfl, List.prefix_rfl, List.prefix_rfl, List.prefix_rfl, List.prefix_rfl,
    List.prefix_rfl, List.prefix_rfl⟩

theorem Within.trans (first : σ.Within τ) (second : τ.Within υ) : σ.Within υ where
  funcs := first.funcs.trans second.funcs
  tables := first.tables.trans second.tables
  memories := first.memories.trans second.memories
  globals := first.globals.trans second.globals
  elems := first.elems.trans second.elems
  datas := first.datas.trans second.datas
  instances := first.instances.trans second.instances

theorem Serves.mono {inst : ModuleInstance} {ctx : Context} (serves : σ.Serves inst ctx)
    (within : σ.Within τ) : τ.Serves inst ctx where
  types := serves.types
  funcs := serves.funcs.mono (within.funcs.map _)
  tables := serves.tables.mono within.tables
  memories := serves.memories.mono within.memories
  globals := serves.globals.mono within.globals
  elems := serves.elems.mono within.elems
  datas := serves.datas.mono within.datas

end Shape

variable {σ τ : Shape} {s s' : Store}

/-- Code that is checked stays so when the store grows. -/
theorem Code.Checked.mono {f : Code} {ctx : Context} (checked : f.Checked σ ctx)
    (within : σ.Within τ) : f.Checked τ ctx where
  home := by
    obtain ⟨id, inst, own, found, serves⟩ := checked.home
    obtain ⟨rest, same⟩ := within.instances
    obtain ⟨inside, -⟩ := List.getElem?_eq_some_iff.mp found
    refine ⟨id, inst, own, ?_, serves.mono within⟩
    rw [← same, List.getElem?_append_left inside]
    exact found
  known := checked.known
  locals := checked.locals
  results := checked.results
  wellFormed := checked.wellFormed
  typed := checked.typed

/-! ## Adding -/

namespace Store

variable (s : Store)

theorem shape_addFunc (f : FuncInst) :
    (s.addFunc f).2.shape = { s.shape with funcs := s.shape.funcs ++ [f] } := by
  simp [shape, addFunc]

theorem shape_addTable (t : TableType) :
    (s.addTable t).2.shape = { s.shape with tables := s.shape.tables ++ [t.elem] } := by
  simp [shape, addTable]

theorem shape_addMemory (t : MemoryType) :
    (s.addMemory t).2.shape = { s.shape with memories := s.shape.memories ++ [()] } := by
  simp [shape, addMemory]

theorem shape_addGlobal (t : GlobalType) (v : Value) :
    (s.addGlobal t v).2.shape = { s.shape with globals := s.shape.globals ++ [t] } := by
  simp [shape, addGlobal]

theorem shape_addElem (t : ValType) (refs : List Ref) :
    (s.addElem t refs).2.shape = { s.shape with elems := s.shape.elems ++ [t] } := by
  simp [shape, addElem]

theorem shape_addData (data : List UInt8) :
    (s.addData data).2.shape = { s.shape with datas := s.shape.datas ++ [()] } := by
  simp [shape, addData]

theorem shape_addInstance (inst : ModuleInstance) :
    (s.addInstance inst).2.shape =
      { s.shape with instances := s.shape.instances ++ [inst.spaces] } := by
  simp [shape, addInstance]

/-! ## Room behind what is there -/

variable {s}

theorem within_addFunc (f : FuncInst) : s.shape.Within (s.addFunc f).2.shape := by
  rw [shape_addFunc]
  exact { Shape.Within.refl _ with funcs := List.prefix_append _ _ }

theorem within_addTable (t : TableType) : s.shape.Within (s.addTable t).2.shape := by
  rw [shape_addTable]
  exact { Shape.Within.refl _ with tables := List.prefix_append _ _ }

theorem within_addMemory (t : MemoryType) : s.shape.Within (s.addMemory t).2.shape := by
  rw [shape_addMemory]
  exact { Shape.Within.refl _ with memories := List.prefix_append _ _ }

theorem within_addGlobal (t : GlobalType) (v : Value) :
    s.shape.Within (s.addGlobal t v).2.shape := by
  rw [shape_addGlobal]
  exact { Shape.Within.refl _ with globals := List.prefix_append _ _ }

theorem within_addElem (t : ValType) (refs : List Ref) :
    s.shape.Within (s.addElem t refs).2.shape := by
  rw [shape_addElem]
  exact { Shape.Within.refl _ with elems := List.prefix_append _ _ }

theorem within_addData (data : List UInt8) : s.shape.Within (s.addData data).2.shape := by
  rw [shape_addData]
  exact { Shape.Within.refl _ with datas := List.prefix_append _ _ }

theorem within_addInstance (inst : ModuleInstance) :
    s.shape.Within (s.addInstance inst).2.shape := by
  rw [shape_addInstance]
  exact { Shape.Within.refl _ with instances := List.prefix_append _ _ }

end Store

/-- A property of the items of an array and of one that is added. -/
theorem forall_push {α : Type} {P : α → Prop} {items : Array α} {last : α}
    (holds : ∀ (i : Nat) (item : α), items[i]? = some item → P item) (new : P last) :
    ∀ (i : Nat) (item : α), (items.push last)[i]? = some item → P item := by
  intro i item found
  rw [Array.getElem?_push] at found
  split at found
  · cases found
    exact new
  · exact holds i item found

namespace Store.Typed

variable {n : Nat}

theorem addFunc (typed : s.Typed n) (f : FuncInst) : (s.addFunc f).2.Typed n :=
  ⟨typed.tables, typed.globals, typed.elems, typed.kept⟩

/-- The null references of a new table are of its type. -/
theorem addTable (typed : s.Typed n) (t : TableType) : (s.addTable t).2.Typed n := by
  refine ⟨forall_push typed.tables ?_, typed.globals, typed.elems, typed.kept⟩
  intro reference r mem
  obtain ⟨-, rfl⟩ := Array.mem_replicate.mp mem
  exact ⟨rfl, reference⟩

theorem addMemory (typed : s.Typed n) (t : MemoryType) : (s.addMemory t).2.Typed n :=
  ⟨typed.tables, typed.globals, typed.elems, typed.kept⟩

theorem addGlobal (typed : s.Typed n) {t : GlobalType} {v : Value} (has : v.Has n t.type) :
    (s.addGlobal t v).2.Typed n :=
  ⟨typed.tables, forall_push typed.globals has, typed.elems, typed.kept⟩

theorem addElem (typed : s.Typed n) {t : ValType} {refs : List Ref}
    (has : ∀ r ∈ refs, (Value.ref r).Has n t) : (s.addElem t refs).2.Typed n :=
  ⟨typed.tables, typed.globals, forall_push typed.elems has, typed.kept⟩

theorem addData (typed : s.Typed n) (data : List UInt8) : (s.addData data).2.Typed n :=
  ⟨typed.tables, typed.globals, typed.elems, typed.kept⟩

theorem addInstance (typed : s.Typed n) (inst : ModuleInstance) :
    (s.addInstance inst).2.Typed n :=
  ⟨typed.tables, typed.globals, typed.elems, typed.kept⟩

end Store.Typed

/-! ## Stores that are ready -/

/-- Everything in a store has the type of its place, and all its code is checked. -/
structure Store.Ready (s : Store) : Prop where
  typed : s.Typed s.shape.size
  code : ∀ f, .code f ∈ s.shape.funcs → ∃ ctx, f.Checked s.shape ctx

namespace Store.Ready

theorem of (ready : s.Ready) : s.Of s.shape := ⟨rfl, ready.typed⟩

/-- A typed store of the shape of a ready one is ready. -/
theorem of_shape (ready : s.Ready) (of : s'.Of s.shape) : s'.Ready := by
  refine ⟨?_, ?_⟩
  · rw [of.shape]
    exact of.typed
  · rw [of.shape]
    exact ready.code

/-- With honest host functions, all functions can be relied on. -/
theorem lawful (ready : s.Ready)
    (honest : ∀ f, .host f ∈ s.shape.funcs → f.Honest s.shape.size) : s.shape.Lawful :=
  ⟨ready.code, honest⟩

/-- With host functions that keep their promises, all functions do. -/
theorem sound (ready : s.Ready) (tame : ∀ f, .host f ∈ s.shape.funcs → f.Tame s.shape.size) :
    s.shape.Sound := ⟨ready.code, tame⟩

/-- A ready store stays ready when it grows and code that is new is checked. -/
theorem grow (ready : s.Ready) (within : s.shape.Within s'.shape)
    (typed : s'.Typed s'.shape.size)
    (code : ∀ f, .code f ∈ s'.shape.funcs →
      .code f ∈ s.shape.funcs ∨ ∃ ctx, f.Checked s'.shape ctx) : s'.Ready where
  typed := typed
  code f mem := by
    rcases code f mem with old | checked
    · obtain ⟨ctx, checked⟩ := ready.code f old
      exact ⟨ctx, checked.mono within⟩
    · exact checked

end Store.Ready

end WasmMachine
