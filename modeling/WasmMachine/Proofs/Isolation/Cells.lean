/-
# What an instance owns

Tables, memories, globals and segments are the cells of a store: what running code can
change.  An instance owns the cells that its indices stand for, so two stores can agree on
what it owns, or on everything else.  Of what its cells hold it matters where references
lead, since a reference to a function is all that code needs to call it.
-/

import WasmMachine.Proofs.Safety.Store

namespace WasmMachine

/-- A cell of a store: something in it that running code can change. -/
inductive Cell
  | table (addr : Addr)
  | memory (addr : Addr)
  | global (addr : Addr)
  | elem (addr : Addr)
  | data (addr : Addr)
  deriving DecidableEq

/-- What is found in a cell. -/
inductive Content
  | table (t : TableInst)
  | memory (m : MemInst)
  | global (g : GlobalInst)
  | elem (e : ElemInst)
  | data (d : DataInst)

/-- What a store has in a cell. -/
def Store.content? (s : Store) : Cell → Option Content
  | .table addr => (s.tables[addr]?).map .table
  | .memory addr => (s.memories[addr]?).map .memory
  | .global addr => (s.globals[addr]?).map .global
  | .elem addr => (s.elems[addr]?).map .elem
  | .data addr => (s.datas[addr]?).map .data

/-- An instance owns the cells that its indices stand for. -/
def ModuleInstance.Owns (inst : ModuleInstance) : Cell → Prop
  | .table addr => addr ∈ inst.tables
  | .memory addr => addr ∈ inst.memories
  | .global addr => addr ∈ inst.globals
  | .elem addr => addr ∈ inst.elems
  | .data addr => addr ∈ inst.datas

/-- A reference leads to no function but those of an instance. -/
def Ref.Within (inst : ModuleInstance) : Ref → Prop
  | .func addr => addr ∈ inst.funcs
  | .null _ | .external _ => True

/-- So does a value. Numbers lead nowhere. -/
def Value.Within (inst : ModuleInstance) : Value → Prop
  | .ref r => r.Within inst
  | _ => True

/-- All references that are found in a cell lead no further. -/
def Content.Within (inst : ModuleInstance) : Content → Prop
  | .table t => ∀ r ∈ t.elems, r.Within inst
  | .global g => g.value.Within inst
  | .elem e => ∀ r ∈ e.refs, r.Within inst
  | .memory _ | .data _ => True

namespace Store

/-- A function is code that belongs to an instance. -/
def CodeOf (s : Store) (id : InstanceId) (addr : Addr) : Prop :=
  ∃ f, s.funcs[addr]? = some (.code f) ∧ f.home = some id

/-- What an instance owns is there, and holds no reference that leads out of it. -/
def Encloses (s : Store) (inst : ModuleInstance) : Prop :=
  ∀ p, inst.Owns p → ∃ c, s.content? p = some c ∧ c.Within inst

/-- Two stores agree on some cells. -/
def SameInside (own : Cell → Prop) (s t : Store) : Prop :=
  ∀ p, own p → t.content? p = s.content? p

/-- Two stores agree on everything but some cells. -/
structure SameOutside (own : Cell → Prop) (s t : Store) : Prop where
  funcs : t.funcs = s.funcs
  instances : t.instances = s.instances
  cells : ∀ p, ¬ own p → t.content? p = s.content? p

/-- A change of stores rewrites one cell. -/
structure Rewrites (f : Store → Store) (p : Cell) (g : Content → Content) : Prop where
  funcs : ∀ s, (f s).funcs = s.funcs
  instances : ∀ s, (f s).instances = s.instances
  content : ∀ s q, (f s).content? q = if q = p then (s.content? q).map g else s.content? q

variable {inst : ModuleInstance} {own : Cell → Prop} {s t : Store} {f : Store → Store} {p : Cell}
  {g : Content → Content}

theorem SameInside.refl (own : Cell → Prop) (s : Store) : SameInside own s s := fun _ _ => rfl

theorem SameOutside.refl (own : Cell → Prop) (s : Store) : SameOutside own s s :=
  ⟨rfl, rfl, fun _ _ => rfl⟩

/-- Rewriting one cell alike keeps an agreement. -/
theorem SameInside.rewrite (same : SameInside own s t) (rewrites : Rewrites f p g) :
    SameInside own (f s) (f t) := by
  intro q here
  rw [rewrites.content, rewrites.content, same q here]

/-- Rewriting one of the cells leaves everything else alone. -/
theorem SameOutside.rewrite (same : SameOutside own s t) (rewrites : Rewrites f p g)
    (here : own p) : SameOutside own s (f t) where
  funcs := (rewrites.funcs t).trans same.funcs
  instances := (rewrites.instances t).trans same.instances
  cells q foreign := by
    rw [rewrites.content, if_neg, same.cells q foreign]
    rintro rfl
    exact foreign here

/-- What is written in an instance's cell must lead nowhere else. -/
theorem Encloses.rewrite (encloses : s.Encloses inst) (rewrites : Rewrites f p g)
    (kept : ∀ c, c.Within inst → (g c).Within inst) : (f s).Encloses inst := by
  intro q own
  obtain ⟨c, found, within⟩ := encloses q own
  rw [rewrites.content, found]
  split
  · exact ⟨g c, rfl, kept c within⟩
  · exact ⟨c, rfl, within⟩

end Store

/-! ## Changes of one cell -/

namespace Content

/-- Change a table. -/
def mapTable (f : TableInst → TableInst) : Content → Content
  | .table t => .table (f t)
  | c => c

/-- Change a memory. -/
def mapMemory (f : MemInst → MemInst) : Content → Content
  | .memory m => .memory (f m)
  | c => c

/-- Change a global. -/
def mapGlobal (f : GlobalInst → GlobalInst) : Content → Content
  | .global g => .global (f g)
  | c => c

/-- Change an element segment. -/
def mapElem (f : ElemInst → ElemInst) : Content → Content
  | .elem e => .elem (f e)
  | c => c

/-- Change a data segment. -/
def mapData (f : DataInst → DataInst) : Content → Content
  | .data d => .data (f d)
  | c => c

variable {inst : ModuleInstance} {c : Content}

theorem Within.mapTable (within : c.Within inst) {f : TableInst → TableInst}
    (kept : ∀ t, (∀ r ∈ t.elems, r.Within inst) → ∀ r ∈ (f t).elems, r.Within inst) :
    (c.mapTable f).Within inst := by
  cases c with
  | table t => exact kept t within
  | _ => exact within

theorem Within.mapMemory (within : c.Within inst) (f : MemInst → MemInst) :
    (c.mapMemory f).Within inst := by
  cases c with
  | _ => exact within

theorem Within.mapGlobal (within : c.Within inst) {f : GlobalInst → GlobalInst}
    (kept : ∀ g, (f g).value.Within inst) : (c.mapGlobal f).Within inst := by
  cases c with
  | global g => exact kept g
  | _ => exact within

theorem Within.mapElem (within : c.Within inst) {f : ElemInst → ElemInst}
    (kept : ∀ e, ∀ r ∈ (f e).refs, r.Within inst) : (c.mapElem f).Within inst := by
  cases c with
  | elem e => exact kept e
  | _ => exact within

theorem Within.mapData (within : c.Within inst) (f : DataInst → DataInst) :
    (c.mapData f).Within inst := by
  cases c with
  | _ => exact within

end Content

namespace Store

/-- What is found in an array with one item changed, with the item as a sort of content. -/
theorem map_getElem?_modify {α : Type} (items : Array α) (i j : Nat) (f : α → α)
    {sort : α → Content} {g : Content → Content} (suits : ∀ a, g (sort a) = sort (f a)) :
    ((items.modify i f)[j]?).map sort
      = if j = i then ((items[j]?).map sort).map g else (items[j]?).map sort := by
  rw [Array.getElem?_modify]
  by_cases same : i = j
  · rw [if_pos same, if_pos same.symm]
    cases items[j]? with
    | none => rfl
    | some a => exact congrArg some (suits a).symm
  · rw [if_neg same, if_neg (Ne.symm same)]

variable (addr : Addr)

theorem rewrites_table (f : TableInst → TableInst) :
    Rewrites (fun s => { s with tables := s.tables.modify addr f }) (.table addr)
      (.mapTable f) where
  funcs _ := rfl
  instances _ := rfl
  content s q := by
    cases q with
    | table other =>
        simp only [Cell.table.injEq]
        exact map_getElem?_modify s.tables addr other f fun _ => rfl
    | _ => rfl

theorem rewrites_memory (f : MemInst → MemInst) :
    Rewrites (fun s => { s with memories := s.memories.modify addr f }) (.memory addr)
      (.mapMemory f) where
  funcs _ := rfl
  instances _ := rfl
  content s q := by
    cases q with
    | memory other =>
        simp only [Cell.memory.injEq]
        exact map_getElem?_modify s.memories addr other f fun _ => rfl
    | _ => rfl

theorem rewrites_global (f : GlobalInst → GlobalInst) :
    Rewrites (fun s => { s with globals := s.globals.modify addr f }) (.global addr)
      (.mapGlobal f) where
  funcs _ := rfl
  instances _ := rfl
  content s q := by
    cases q with
    | global other =>
        simp only [Cell.global.injEq]
        exact map_getElem?_modify s.globals addr other f fun _ => rfl
    | _ => rfl

theorem rewrites_elem (f : ElemInst → ElemInst) :
    Rewrites (fun s => { s with elems := s.elems.modify addr f }) (.elem addr)
      (.mapElem f) where
  funcs _ := rfl
  instances _ := rfl
  content s q := by
    cases q with
    | elem other =>
        simp only [Cell.elem.injEq]
        exact map_getElem?_modify s.elems addr other f fun _ => rfl
    | _ => rfl

theorem rewrites_data (f : DataInst → DataInst) :
    Rewrites (fun s => { s with datas := s.datas.modify addr f }) (.data addr)
      (.mapData f) where
  funcs _ := rfl
  instances _ := rfl
  content s q := by
    cases q with
    | data other =>
        simp only [Cell.data.injEq]
        exact map_getElem?_modify s.datas addr other f fun _ => rfl
    | _ => rfl

end Store

end WasmMachine
