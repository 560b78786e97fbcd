/-
# Segments as an overlay

An active segment puts a run of items into one table or memory: it is a patch.  Patches are put
one over the other, so a cell shows the item of the last patch that covers it, and what was
there before where no patch does.  A segment that was applied is empty afterwards, and so is a
declarative one that was passed.

All of this is said of the store in which the definitions are complete.  Applying a segment
changes no size, no global and no other segment, so where a segment goes, whether it fits and
what it holds can be read off that store for all segments at once.
-/

import WasmMachine.Proofs.Linking.Layout
import WasmMachine.Proofs.Memory.Runs

namespace WasmMachine

/-! ## Patches -/

/-- Items for neighbouring cells of one table or memory. -/
structure Patch (α : Type) where
  addr : Addr
  start : Nat
  items : List α

namespace Patch

variable {α : Type}

/-- The item for a cell, if the patch covers it. -/
def at? (patch : Patch α) (addr : Addr) (i : Nat) : Option α :=
  if patch.addr = addr ∧ patch.start ≤ i then patch.items[i - patch.start]? else none

/-- The item of the last patch that covers a cell. -/
def last? (patches : List (Patch α)) (addr : Addr) (i : Nat) : Option α :=
  patches.reverse.findSome? (·.at? addr i)

@[simp]
theorem last?_nil (addr : Addr) (i : Nat) : last? ([] : List (Patch α)) addr i = none := rfl

@[simp]
theorem last?_singleton (patch : Patch α) (addr : Addr) (i : Nat) :
    last? [patch] addr i = patch.at? addr i := by
  unfold last?
  cases covered : patch.at? addr i <;> simp [covered]

/-- The later patches come first. -/
theorem last?_append (patches later : List (Patch α)) (addr : Addr) (i : Nat) :
    last? (patches ++ later) addr i = (last? later addr i).or (last? patches addr i) := by
  unfold last?
  rw [List.reverse_append, List.findSome?_append]

/-- Patches that are put over other ones, in one cell. -/
theorem map_getD_last?_append {patches later : List (Patch α)} {addr : Addr} {i : Nat}
    {cell : Option α} :
    ((cell.map fun prior => (last? patches addr i).getD prior).map fun prior =>
      (last? later addr i).getD prior) =
      cell.map fun prior => (last? (patches ++ later) addr i).getD prior := by
  rw [Option.map_map, last?_append]
  refine congrArg (Option.map · cell) (funext fun prior => ?_)
  cases last? later addr i <;> rfl

end Patch

/-- Overwritten cells, and the others. -/
theorem Cells.getElem?_overwrite {α : Type} {cells : Array α} {start : Nat} {items : List α}
    (fits : start + items.length ≤ cells.size) (i : Nat) :
    (overwrite cells start items)[i]? =
      cells[i]?.map fun prior => (if start ≤ i then items[i - start]? else none).getD prior := by
  by_cases before : start ≤ i
  · rw [if_pos before]
    by_cases inside : i - start < items.length
    · have here := getElem?_overwrite_inside fits inside
      rw [Nat.add_sub_cancel' before] at here
      have there : i < cells.size := by omega
      rw [here, Array.getElem?_eq_getElem there, List.getElem?_eq_getElem inside]
      rfl
    · rw [getElem?_overwrite_outside (by omega), List.getElem?_eq_none (by omega)]
      simp
  · rw [if_neg before, getElem?_overwrite_outside (by omega)]
    simp

namespace Store

/-- An entry of a table. -/
def refAt? (s : Store) (addr : Addr) (i : Nat) : Option Ref := (s.tables[addr]?).bind (·.elems[i]?)

/-- A byte of a memory. -/
def byteAt? (s : Store) (addr : Addr) (i : Nat) : Option UInt8 :=
  (s.memories[addr]?).bind (·.data[i]?)

variable {s : Store}

/-- A table that is written shows the patch over what it held. -/
theorem refAt?_writeTable (patch : Patch Ref)
    (fits : patch.start + patch.items.length ≤ s.tableSize patch.addr) (addr : Addr) (i : Nat) :
    (s.writeTable patch.addr patch.start patch.items).refAt? addr i =
      (s.refAt? addr i).map fun prior => (patch.at? addr i).getD prior := by
  unfold refAt? writeTable Patch.at?
  rw [Array.getElem?_modify]
  by_cases same : patch.addr = addr
  · subst same
    unfold tableSize at fits
    cases held : s.tables[patch.addr]? with
    | none => simp
    | some t =>
        rw [held] at fits
        simp [Cells.getElem?_overwrite fits]
  · simp [same]

/-- A memory that is written shows the patch over what it held. -/
theorem byteAt?_writeMemory (patch : Patch UInt8)
    (fits : patch.start + patch.items.length ≤ s.memorySize patch.addr) (addr : Addr) (i : Nat) :
    (s.writeMemory patch.addr patch.start patch.items).byteAt? addr i =
      (s.byteAt? addr i).map fun prior => (patch.at? addr i).getD prior := by
  unfold byteAt? writeMemory Patch.at?
  rw [Array.getElem?_modify]
  by_cases same : patch.addr = addr
  · subst same
    unfold memorySize at fits
    cases held : s.memories[patch.addr]? with
    | none => simp
    | some t =>
        rw [held] at fits
        simp [MemInst.data_write, Cells.getElem?_overwrite fits]
  · simp [same]

end Store

/-! ## Segments -/

/-- A segment of a module, by its index among those of its sort. -/
inductive Segment
  | element (i : Nat) (e : Element)
  | data (i : Nat) (d : DataSegment)

/-- The segments of a module in the order in which they are dealt with. -/
def Module.segments (m : Module) : List Segment :=
  (m.elements.zipIdx.map fun (e, i) => .element i e) ++
    m.data.zipIdx.map fun (d, i) => .data i d

/-- The value of an offset as a number. -/
def Store.position (s : Store) (inst : ModuleInstance) (expr : List Instruction) : Nat :=
  match s.offset inst expr with
  | .ok bits => bits.toNat
  | .error _ => 0

namespace Segment

/-- The patch that an active element segment is. -/
def tablePatch? (s : Store) (inst : ModuleInstance) : Segment → Option (Patch Ref)
  | .element i e =>
      if e.mode = .active then
        some ⟨inst.tables[e.table.toNat]?.getD 0, s.position inst e.offset,
          s.refsOf (inst.elems[i]?.getD 0)⟩
      else none
  | .data _ _ => none

/-- The patch that an active data segment is. -/
def memoryPatch? (s : Store) (inst : ModuleInstance) : Segment → Option (Patch UInt8)
  | .element _ _ => none
  | .data i d =>
      if d.mode = .active then
        some ⟨inst.memories[d.memory.toNat]?.getD 0, s.position inst d.offset,
          s.bytesOf (inst.datas[i]?.getD 0)⟩
      else none

/-- The element segment of the store that is empty once a segment was dealt with. -/
def droppedElem? (inst : ModuleInstance) : Segment → Option Addr
  | .element i e =>
      if e.mode = .active ∨ e.mode = .declarative then some (inst.elems[i]?.getD 0) else none
  | .data _ _ => none

/-- The data segment of the store that is empty once a segment was dealt with. -/
def droppedData? (inst : ModuleInstance) : Segment → Option Addr
  | .element _ _ => none
  | .data i d => if d.mode = .active then some (inst.datas[i]?.getD 0) else none

/-- A segment that is not active, or that ends inside its table or memory. -/
def Fits (s : Store) (inst : ModuleInstance) : Segment → Prop
  | .element i e => e.mode = .active → ∃ table bits,
      inst.tables[e.table.toNat]? = some table ∧ s.offset inst e.offset = .ok bits ∧
        bits.toNat + (s.refsOf (inst.elems[i]?.getD 0)).length ≤ s.tableSize table
  | .data i d => d.mode = .active → ∃ memory bits,
      inst.memories[d.memory.toNat]? = some memory ∧ s.offset inst d.offset = .ok bits ∧
        bits.toNat + (s.bytesOf (inst.datas[i]?.getD 0)).length ≤ s.memorySize memory

/-- An active segment that ends behind the end of its table or memory, with the failure that
this is. -/
inductive Overlong (s : Store) (inst : ModuleInstance) : Segment → LinkError → Prop
  | element {i : Nat} {e : Element} {table : Addr} {bits : UInt32} : e.mode = .active →
      inst.tables[e.table.toNat]? = some table → s.offset inst e.offset = .ok bits →
      s.tableSize table < bits.toNat + (s.refsOf (inst.elems[i]?.getD 0)).length →
      Overlong s inst (.element i e) (.elementBounds i e.table bits)
  | data {i : Nat} {d : DataSegment} {memory : Addr} {bits : UInt32} : d.mode = .active →
      inst.memories[d.memory.toNat]? = some memory → s.offset inst d.offset = .ok bits →
      s.memorySize memory < bits.toNat + (s.bytesOf (inst.datas[i]?.getD 0)).length →
      Overlong s inst (.data i d) (.dataBounds i d.memory bits)

end Segment

namespace Store

/-- What dealing with some segments, one after the other, makes of the store `s`. Where they go
and what they hold is read off the store `p`. -/
structure Overlaid (p : Store) (inst : ModuleInstance) (segments : List Segment) (s s' : Store) :
    Prop where
  entries : ∀ addr i, s'.refAt? addr i = (s.refAt? addr i).map fun prior =>
    (Patch.last? (segments.filterMap (·.tablePatch? p inst)) addr i).getD prior
  bytes : ∀ addr i, s'.byteAt? addr i = (s.byteAt? addr i).map fun prior =>
    (Patch.last? (segments.filterMap (·.memoryPatch? p inst)) addr i).getD prior
  elems : ∀ addr, s'.elems[addr]? = (s.elems[addr]?).map fun held =>
    if addr ∈ segments.filterMap (·.droppedElem? inst) then { held with refs := [] } else held
  datas : ∀ addr, s'.datas[addr]? = (s.datas[addr]?).map fun held =>
    if addr ∈ segments.filterMap (·.droppedData? inst) then ⟨[]⟩ else held
  tables : ∀ addr, s'.tableSize addr = s.tableSize addr
  memories : ∀ addr, s'.memorySize addr = s.memorySize addr
  funcs : s'.funcs = s.funcs
  globals : s'.globals = s.globals
  instances : s'.instances = s.instances

variable {p s s' s'' : Store} {inst : ModuleInstance} {segment : Segment}
  {done later : List Segment}

/-- Segments that go nowhere and stay as they are. -/
theorem Overlaid.unchanged {segments : List Segment}
    (table : segments.filterMap (·.tablePatch? p inst) = [])
    (memory : segments.filterMap (·.memoryPatch? p inst) = [])
    (elem : segments.filterMap (·.droppedElem? inst) = [])
    (data : segments.filterMap (·.droppedData? inst) = []) : Overlaid p inst segments s s := by
  refine ⟨?_, ?_, ?_, ?_, fun _ => rfl, fun _ => rfl, rfl, rfl, rfl⟩
  all_goals simp [table, memory, elem, data]

theorem Overlaid.nil : Overlaid p inst [] s s := .unchanged rfl rfl rfl rfl

/-- What is emptied by one of some segments or by a later one is empty afterwards. -/
theorem map_emptied_append {α : Type} {dropped later : List Addr} {addr : Addr}
    {held? : Option α} (empty : α → α) (twice : ∀ a, empty (empty a) = empty a) :
    ((held?.map fun held => if addr ∈ dropped then empty held else held).map fun held =>
      if addr ∈ later then empty held else held) =
      held?.map fun held => if addr ∈ dropped ++ later then empty held else held := by
  rw [Option.map_map]
  refine congrArg (Option.map · held?) (funext fun held => ?_)
  by_cases here : addr ∈ later
  · by_cases before : addr ∈ dropped <;> simp [here, before, twice]
  · simp [here]

theorem Overlaid.append (overlaid : Overlaid p inst done s s')
    (above : Overlaid p inst later s' s'') : Overlaid p inst (done ++ later) s s'' where
  entries addr i := by
    rw [above.entries, overlaid.entries, List.filterMap_append, Patch.map_getD_last?_append]
  bytes addr i := by
    rw [above.bytes, overlaid.bytes, List.filterMap_append, Patch.map_getD_last?_append]
  elems addr := by
    rw [above.elems, overlaid.elems, List.filterMap_append]
    exact map_emptied_append (fun held : ElemInst => { held with refs := [] }) fun _ => rfl
  datas addr := by
    rw [above.datas, overlaid.datas, List.filterMap_append]
    exact map_emptied_append (fun _ : DataInst => ⟨[]⟩) fun _ => rfl
  tables addr := (above.tables addr).trans (overlaid.tables addr)
  memories addr := (above.memories addr).trans (overlaid.memories addr)
  funcs := above.funcs.trans overlaid.funcs
  globals := above.globals.trans overlaid.globals
  instances := above.instances.trans overlaid.instances

/-! ## One segment -/

theorem tableSize_writeTable (table start : Nat) (refs : List Ref) (addr : Addr) :
    (s.writeTable table start refs).tableSize addr = s.tableSize addr := by
  unfold tableSize writeTable
  rw [Array.getElem?_modify]
  split
  · simp [Function.comp_def]
  · rfl

theorem memorySize_writeMemory (memory start : Nat) (bytes : List UInt8) (addr : Addr) :
    (s.writeMemory memory start bytes).memorySize addr = s.memorySize addr := by
  unfold memorySize writeMemory
  rw [Array.getElem?_modify]
  split
  · simp only [Option.map_map, Function.comp_def, MemInst.size_write]
  · rfl

theorem elems_dropElem (dropped addr : Addr) :
    (s.dropElem dropped).elems[addr]? = (s.elems[addr]?).map fun held =>
      if addr ∈ [dropped] then { held with refs := [] } else held := by
  unfold dropElem
  rw [Array.getElem?_modify]
  by_cases same : dropped = addr
  · simp [same]
  · simp [same, Ne.symm same]

theorem datas_dropData (dropped addr : Addr) :
    (s.dropData dropped).datas[addr]? = (s.datas[addr]?).map fun held =>
      if addr ∈ [dropped] then ⟨[]⟩ else held := by
  unfold dropData
  rw [Array.getElem?_modify]
  by_cases same : dropped = addr
  · simp [same]
  · simp [same, Ne.symm same]

theorem AppliesElement.overlaid {i : Nat} {e : Element}
    (applies : s.AppliesElement inst e (inst.elems[i]?.getD 0) s') :
    Overlaid s inst [.element i e] s s' := by
  cases applies with
  | @active table bits active target ran fits =>
      have patch : (Segment.element i e).tablePatch? s inst =
          some ⟨table, bits.toNat, s.refsOf (inst.elems[i]?.getD 0)⟩ := by
        simp [Segment.tablePatch?, active, target, position, ran]
      have dropped : (Segment.element i e).droppedElem? inst = some (inst.elems[i]?.getD 0) :=
        if_pos (.inl active)
      exact {
        entries := fun addr j => by
          rw [List.filterMap_cons_some patch, List.filterMap_nil, Patch.last?_singleton]
          exact refAt?_writeTable ⟨table, bits.toNat, _⟩ fits addr j
        bytes := fun _ _ => Option.map_id'.symm
        elems := fun addr => by
          rw [List.filterMap_cons_some dropped]
          exact elems_dropElem _ addr
        datas := fun _ => Option.map_id'.symm
        tables := fun addr => tableSize_writeTable table _ _ addr
        memories := fun _ => rfl
        funcs := rfl
        globals := rfl
        instances := rfl }
  | declarative declarative =>
      have passed : (Segment.element i e).tablePatch? s inst = none :=
        if_neg (by rw [declarative]; decide)
      have dropped : (Segment.element i e).droppedElem? inst = some (inst.elems[i]?.getD 0) :=
        if_pos (.inr declarative)
      exact {
        entries := fun _ _ => by
          rw [List.filterMap_cons_none passed]
          exact Option.map_id'.symm
        bytes := fun _ _ => Option.map_id'.symm
        elems := fun addr => by
          rw [List.filterMap_cons_some dropped]
          exact elems_dropElem _ addr
        datas := fun _ => Option.map_id'.symm
        tables := fun _ => rfl
        memories := fun _ => rfl
        funcs := rfl
        globals := rfl
        instances := rfl }
  | passive other other' =>
      exact .unchanged (List.filterMap_cons_none (if_neg other)) rfl
        (List.filterMap_cons_none (if_neg (by simp [other, other']))) rfl

theorem AppliesData.overlaid {i : Nat} {d : DataSegment}
    (applies : s.AppliesData inst d (inst.datas[i]?.getD 0) s') :
    Overlaid s inst [.data i d] s s' := by
  cases applies with
  | @active memory bits active target ran fits =>
      have patch : (Segment.data i d).memoryPatch? s inst =
          some ⟨memory, bits.toNat, s.bytesOf (inst.datas[i]?.getD 0)⟩ := by
        simp [Segment.memoryPatch?, active, target, position, ran]
      have dropped : (Segment.data i d).droppedData? inst = some (inst.datas[i]?.getD 0) :=
        if_pos active
      exact {
        entries := fun _ _ => Option.map_id'.symm
        bytes := fun addr j => by
          rw [List.filterMap_cons_some patch, List.filterMap_nil, Patch.last?_singleton]
          exact byteAt?_writeMemory ⟨memory, bits.toNat, _⟩ fits addr j
        elems := fun _ => Option.map_id'.symm
        datas := fun addr => by
          rw [List.filterMap_cons_some dropped]
          exact datas_dropData _ addr
        tables := fun _ => rfl
        memories := fun addr => memorySize_writeMemory memory _ _ addr
        funcs := rfl
        globals := rfl
        instances := rfl }
  | passive passive =>
      exact .unchanged rfl (List.filterMap_cons_none (if_neg passive)) rfl
        (List.filterMap_cons_none (if_neg passive))

/-! ## Reading ahead -/

/-- What a segment finds in a store is what it would have found in another one: offsets,
sizes, and what the segment itself holds. -/
structure Foretells (p : Store) (inst : ModuleInstance) (segment : Segment) (s : Store) : Prop where
  offset : ∀ expr, s.offset inst expr = p.offset inst expr
  tables : ∀ addr, s.tableSize addr = p.tableSize addr
  memories : ∀ addr, s.memorySize addr = p.memorySize addr
  refs : ∀ i e, segment = .element i e → e.mode = .active →
    s.refsOf (inst.elems[i]?.getD 0) = p.refsOf (inst.elems[i]?.getD 0)
  bytes : ∀ i d, segment = .data i d → d.mode = .active →
    s.bytesOf (inst.datas[i]?.getD 0) = p.bytesOf (inst.datas[i]?.getD 0)

theorem offset_congr (globals : s.globals = p.globals) (expr : List Instruction) :
    s.offset inst expr = p.offset inst expr := by
  unfold offset
  rw [constant_congr globals rfl rfl]

/-- No segment before changes what a segment finds, as long as it does not empty it. -/
theorem Overlaid.foretells (overlaid : Overlaid p inst done p s)
    (elem : ∀ addr ∈ segment.droppedElem? inst, addr ∉ done.filterMap (·.droppedElem? inst))
    (data : ∀ addr ∈ segment.droppedData? inst, addr ∉ done.filterMap (·.droppedData? inst)) :
    Foretells p inst segment s where
  offset := offset_congr overlaid.globals
  tables := overlaid.tables
  memories := overlaid.memories
  refs := by
    rintro i e rfl active
    have kept := elem (inst.elems[i]?.getD 0) (by simp [Segment.droppedElem?, active])
    simp only [refsOf, overlaid.elems, if_neg kept, Option.map_id']
  bytes := by
    rintro i d rfl active
    have kept := data (inst.datas[i]?.getD 0) (by simp [Segment.droppedData?, active])
    simp only [bytesOf, overlaid.datas, if_neg kept, Option.map_id']

variable (foretells : Foretells p inst segment s)

include foretells

theorem Foretells.position (expr : List Instruction) :
    s.position inst expr = p.position inst expr := by
  unfold Store.position
  rw [foretells.offset]

theorem Foretells.tablePatch? : segment.tablePatch? s inst = segment.tablePatch? p inst := by
  cases segment with
  | element i e =>
      by_cases active : e.mode = .active
      · simp only [Segment.tablePatch?, if_pos active, foretells.position,
          foretells.refs i e rfl active]
      · simp only [Segment.tablePatch?, if_neg active]
  | data i d => rfl

theorem Foretells.memoryPatch? : segment.memoryPatch? s inst = segment.memoryPatch? p inst := by
  cases segment with
  | element i e => rfl
  | data i d =>
      by_cases active : d.mode = .active
      · simp only [Segment.memoryPatch?, if_pos active, foretells.position,
          foretells.bytes i d rfl active]
      · simp only [Segment.memoryPatch?, if_neg active]

/-- So a segment does what it would have done. -/
theorem Foretells.overlaid (overlaid : Overlaid s inst [segment] s s') :
    Overlaid p inst [segment] s s' := by
  have table : [segment].filterMap (·.tablePatch? s inst) =
      [segment].filterMap (·.tablePatch? p inst) := by
    simp only [List.filterMap_cons, List.filterMap_nil, foretells.tablePatch?]
  have memory : [segment].filterMap (·.memoryPatch? s inst) =
      [segment].filterMap (·.memoryPatch? p inst) := by
    simp only [List.filterMap_cons, List.filterMap_nil, foretells.memoryPatch?]
  exact { overlaid with
    entries := table ▸ overlaid.entries
    bytes := memory ▸ overlaid.bytes }

theorem Foretells.fits (fits : segment.Fits p inst) : segment.Fits s inst := by
  cases segment with
  | element i e =>
      intro active
      obtain ⟨table, bits, target, ran, inside⟩ := fits active
      refine ⟨table, bits, target, (foretells.offset _).trans ran, ?_⟩
      rwa [foretells.refs i e rfl active, foretells.tables]
  | data i d =>
      intro active
      obtain ⟨memory, bits, target, ran, inside⟩ := fits active
      refine ⟨memory, bits, target, (foretells.offset _).trans ran, ?_⟩
      rwa [foretells.bytes i d rfl active, foretells.memories]

theorem Foretells.overlong {e : LinkError} (overlong : segment.Overlong p inst e) :
    segment.Overlong s inst e := by
  cases overlong with
  | element active target ran beyond =>
      refine .element active target ((foretells.offset _).trans ran) ?_
      rwa [foretells.refs _ _ rfl active, foretells.tables]
  | data active target ran beyond =>
      refine .data active target ((foretells.offset _).trans ran) ?_
      rwa [foretells.bytes _ _ rfl active, foretells.memories]

end Store

end WasmMachine
