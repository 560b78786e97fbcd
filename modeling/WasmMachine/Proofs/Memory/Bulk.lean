/-
# Bulk operations

A bulk operation moves a run of bytes or of references at once.  It traps exactly when one
of its runs reaches past the end of what it lies in, and has written nothing then.  Otherwise
the target holds what the source held before, or copies of one item, in exactly the cells of
the run, and everything else in the store is as it was.

Source and target may be the same memory or the same table, also under two different
indices, and their runs may overlap: nothing here asks that they be apart.  A run of no cells
lies in bounds also at the very end.
-/

import WasmMachine.Machine.Plain
import WasmMachine.Proofs.Instruction.Families
import WasmMachine.Proofs.Instruction.Numbers
import WasmMachine.Proofs.Memory.Runs
import WasmMachine.Proofs.Memory.Surroundings

namespace WasmMachine

namespace Instruction

/-- The operation behind the miscellaneous prefix, by its number. -/
def miscOp? (i : Instruction) : Option MiscOp :=
  if i.opcode = Opcode.misc then MiscOp.numbers.lookup i.misc.1 else none

/-- An index that follows the number of the operation; a missing one counts as zero. -/
def miscIndex (i : Instruction) (k : Nat) : UInt32 := i.misc.2[k]?.getD 0

/-- What runs is the operation that the number stands for, with the indices. -/
theorem plain_misc {i : Instruction} {op : MiscOp} (known : i.miscOp? = some op)
    (options : Options) (sub : UInt32) (number : MiscOp.ofCode sub = some op) :
    Step.plain options i = Step.misc sub [i.miscIndex 0, i.miscIndex 1] := by
  unfold miscOp? at known
  split at known
  · next code =>
      have numeric : Numeric.Operation.ofOpcode i.opcode = none :=
        Numeric.Operation.eq_none_of_le (by rw [code]; decide)
      have scalar : MemoryAccess.ofOpcode i.opcode = none := by rw [code]; rfl
      have runs : Step.plain options i = Step.misc i.misc.1 i.misc.2 := by
        unfold Step.plain
        simp only [numeric, scalar]
        rw [code]
        rfl
      rw [MiscOp.lookup_numbers] at known
      rw [runs]
      unfold Step.misc
      rw [known, number]
      cases op <;> rfl
  · cases known

end Instruction

namespace Step

variable {s : Scope} {inst : ModuleInstance} {rest : List Value} {d x n index from_ : UInt32}

/-! ## Memories -/

section Memories

variable {addr segment : Addr} {m : MemInst} {seg : DataInst}

/-- What is copied into a memory. -/
theorem writeMemory_copies {store : Store} {source : List UInt8} {start target count : Nat}
    (found : store.memories[addr]? = some m) (there : start + count ≤ source.length)
    (fits : target + count ≤ m.data.size) :
    ∃ data, store.WithMemory
        (store.writeMemory addr target ((source.drop start).take count)) addr m data ∧
      Cells.Copied source start m.data data target count :=
  ⟨_, Store.withMemory_writeMemory found _ _, Cells.copied_overwrite there fits⟩

theorem memoryCopy_moves (running : s.RunsIn inst) (here : inst.memories[0]? = some addr)
    (found : s.store.memories[addr]? = some m)
    (top : s.operands = .i32 n :: .i32 x :: .i32 d :: rest) :
    Moves memoryCopy s rest .memoryBounds
      (m.data.size < x.toNat + n.toNat ∨ m.data.size < d.toNat + n.toNat)
      fun store => ∃ data, s.store.WithMemory store addr m data ∧
        Cells.Copied m.data.toList x.toNat m.data data d.toNat n.toNat := by
  obtain ⟨operands, frame, store⟩ := s
  obtain ⟨id, home, held⟩ := running
  obtain rfl : operands = .i32 n :: .i32 x :: .i32 d :: rest := top
  unfold Moves memoryCopy
  apply Ends.step (address_eq home held .noMemory here)
  apply Ends.step rfl
  apply Ends.step (fetch_eq (s := ⟨rest, frame, store⟩) (.noMemory 0) found)
  by_cases there : x.toNat + n.toNat ≤ m.data.size
  · simp only [Packed.read?_eq, Cells.read?_of_le there]
    refine .guard (fun outside => ⟨.inr outside, rfl, rfl⟩) fun fits => Ends.of_ok rfl ⟨?_, ?_, rfl⟩
    · exact not_or.mpr ⟨Nat.not_lt.mpr there, fits⟩
    · refine writeMemory_copies found ?_ (Nat.not_lt.mp fits)
      rwa [Array.length_toList]
  · have outside := Nat.not_le.mp there
    simp only [Packed.read?_eq, Cells.read?_of_lt outside]
    exact Ends.throw ⟨.inl outside, rfl, rfl⟩

theorem memoryInit_moves (running : s.RunsIn inst)
    (known : inst.datas[index.toNat]? = some segment) (held' : s.store.datas[segment]? = some seg)
    (here : inst.memories[0]? = some addr) (found : s.store.memories[addr]? = some m)
    (top : s.operands = .i32 n :: .i32 x :: .i32 d :: rest) :
    Moves (memoryInit index) s rest .memoryBounds
      (seg.data.length < x.toNat + n.toNat ∨ m.data.size < d.toNat + n.toNat)
      fun store => ∃ data, s.store.WithMemory store addr m data ∧
        Cells.Copied seg.data x.toNat m.data data d.toNat n.toNat := by
  obtain ⟨operands, frame, store⟩ := s
  obtain ⟨id, home, held⟩ := running
  obtain rfl : operands = .i32 n :: .i32 x :: .i32 d :: rest := top
  unfold Moves memoryInit
  apply Ends.step (address_eq home held .noData known)
  apply Ends.step (address_eq home held .noMemory here)
  apply Ends.step rfl
  apply Ends.step (fetch_eq (s := ⟨rest, frame, store⟩) (.noData index) held')
  apply Ends.step (fetch_eq (s := ⟨rest, frame, store⟩) (.noMemory 0) found)
  refine .guard (fun outside => ⟨outside, rfl, rfl⟩) fun inside => Ends.of_ok rfl ⟨inside, ?_, rfl⟩
  obtain ⟨there, fits⟩ := not_or.mp inside
  exact writeMemory_copies found (Nat.not_lt.mp there) (Nat.not_lt.mp fits)

theorem memoryFill_moves (running : s.RunsIn inst) (here : inst.memories[0]? = some addr)
    (found : s.store.memories[addr]? = some m)
    (top : s.operands = .i32 n :: .i32 x :: .i32 d :: rest) :
    Moves memoryFill s rest .memoryBounds (m.data.size < d.toNat + n.toNat)
      fun store => ∃ data, s.store.WithMemory store addr m data ∧
        Cells.Filled x.toUInt8 m.data data d.toNat n.toNat := by
  obtain ⟨operands, frame, store⟩ := s
  obtain ⟨id, home, held⟩ := running
  obtain rfl : operands = .i32 n :: .i32 x :: .i32 d :: rest := top
  unfold Moves memoryFill
  apply Ends.step (address_eq home held .noMemory here)
  apply Ends.step rfl
  apply Ends.step (fetch_eq (s := ⟨rest, frame, store⟩) (.noMemory 0) found)
  refine .guard (fun outside => ⟨outside, rfl, rfl⟩) fun fits => Ends.of_ok rfl ⟨fits, ?_, rfl⟩
  exact ⟨_, Store.withMemory_writeMemory found _ _,
    Cells.filled_overwrite x.toUInt8 (Nat.not_lt.mp fits)⟩

theorem dataDrop_drops (running : s.RunsIn inst)
    (known : inst.datas[index.toNat]? = some segment) (held' : s.store.datas[segment]? = some seg) :
    ∃ store, dataDrop index s = .ok () { s with store := store } ∧
      Exchanged s.store.datas store.datas segment ⟨[]⟩ ∧
      store = { s.store with datas := store.datas } := by
  obtain ⟨id, home, held⟩ := running
  refine ⟨s.store.dropData segment, ?_, exchanged_modify held' fun _ => ⟨[]⟩, rfl⟩
  simp only [dataDrop, dataAddress, bind, EStateM.bind, address_eq home held .noData known]
  rfl

end Memories

/-! ## Tables -/

section Tables

variable {addr source segment : Addr} {t t' : TableInst} {seg : ElemInst} {r : Ref}

/-- What is copied into a table. -/
theorem writeTable_copies {store : Store} {refs : List Ref} {start target count : Nat}
    (found : store.tables[addr]? = some t) (there : start + count ≤ refs.length)
    (fits : target + count ≤ t.elems.size) :
    ∃ elems, store.WithTable
        (store.writeTable addr target ((refs.drop start).take count)) addr t elems ∧
      Cells.Copied refs start t.elems elems target count :=
  ⟨_, Store.withTable_writeTable found _ _, Cells.copied_overwrite there fits⟩

theorem tableCopy_moves (running : s.RunsIn inst) (here : inst.tables[index.toNat]? = some addr)
    (there : inst.tables[from_.toNat]? = some source) (found : s.store.tables[addr]? = some t)
    (found' : s.store.tables[source]? = some t')
    (top : s.operands = .i32 n :: .i32 x :: .i32 d :: rest) :
    Moves (tableCopy index from_) s rest .tableBounds
      (t'.elems.size < x.toNat + n.toNat ∨ t.elems.size < d.toNat + n.toNat)
      fun store => ∃ elems, s.store.WithTable store addr t elems ∧
        Cells.Copied t'.elems.toList x.toNat t.elems elems d.toNat n.toNat := by
  obtain ⟨operands, frame, store⟩ := s
  obtain ⟨id, home, held⟩ := running
  obtain rfl : operands = .i32 n :: .i32 x :: .i32 d :: rest := top
  unfold Moves tableCopy
  apply Ends.step (address_eq home held .noTable here)
  apply Ends.step (address_eq home held .noTable there)
  apply Ends.step rfl
  apply Ends.step (fetch_eq (s := ⟨rest, frame, store⟩) (.noTable from_) found')
  apply Ends.step (fetch_eq (s := ⟨rest, frame, store⟩) (.noTable index) found)
  by_cases reaches : x.toNat + n.toNat ≤ t'.elems.size
  · simp only [Cells.read?_of_le reaches]
    refine .guard (fun outside => ⟨.inr outside, rfl, rfl⟩) fun fits => Ends.of_ok rfl ⟨?_, ?_, rfl⟩
    · exact not_or.mpr ⟨Nat.not_lt.mpr reaches, fits⟩
    · refine writeTable_copies found ?_ (Nat.not_lt.mp fits)
      rwa [Array.length_toList]
  · have outside := Nat.not_le.mp reaches
    simp only [Cells.read?_of_lt outside]
    exact Ends.throw ⟨.inl outside, rfl, rfl⟩

theorem tableInit_moves (running : s.RunsIn inst)
    (known : inst.elems[index.toNat]? = some segment) (held' : s.store.elems[segment]? = some seg)
    (here : inst.tables[from_.toNat]? = some addr) (found : s.store.tables[addr]? = some t)
    (top : s.operands = .i32 n :: .i32 x :: .i32 d :: rest) :
    Moves (tableInit index from_) s rest .tableBounds
      (seg.refs.length < x.toNat + n.toNat ∨ t.elems.size < d.toNat + n.toNat)
      fun store => ∃ elems, s.store.WithTable store addr t elems ∧
        Cells.Copied seg.refs x.toNat t.elems elems d.toNat n.toNat := by
  obtain ⟨operands, frame, store⟩ := s
  obtain ⟨id, home, held⟩ := running
  obtain rfl : operands = .i32 n :: .i32 x :: .i32 d :: rest := top
  unfold Moves tableInit
  apply Ends.step (address_eq home held .noElement known)
  apply Ends.step (address_eq home held .noTable here)
  apply Ends.step rfl
  apply Ends.step (fetch_eq (s := ⟨rest, frame, store⟩) (.noElement index) held')
  apply Ends.step (fetch_eq (s := ⟨rest, frame, store⟩) (.noTable from_) found)
  refine .guard (fun outside => ⟨outside, rfl, rfl⟩) fun inside => Ends.of_ok rfl ⟨inside, ?_, rfl⟩
  obtain ⟨there, fits⟩ := not_or.mp inside
  exact writeTable_copies found (Nat.not_lt.mp there) (Nat.not_lt.mp fits)

theorem tableFill_moves (running : s.RunsIn inst) (here : inst.tables[index.toNat]? = some addr)
    (found : s.store.tables[addr]? = some t)
    (top : s.operands = .i32 n :: .ref r :: .i32 d :: rest) :
    Moves (tableFill index) s rest .tableBounds (t.elems.size < d.toNat + n.toNat)
      fun store => ∃ elems, s.store.WithTable store addr t elems ∧
        Cells.Filled r t.elems elems d.toNat n.toNat := by
  obtain ⟨operands, frame, store⟩ := s
  obtain ⟨id, home, held⟩ := running
  obtain rfl : operands = .i32 n :: .ref r :: .i32 d :: rest := top
  unfold Moves tableFill
  apply Ends.step (address_eq home held .noTable here)
  apply Ends.step (fetch_eq (.noTable index) found)
  apply Ends.step rfl
  apply Ends.step rfl
  apply Ends.step rfl
  refine .guard (fun outside => ⟨outside, rfl, rfl⟩) fun fits => Ends.of_ok rfl ⟨fits, ?_, rfl⟩
  exact ⟨_, Store.withTable_writeTable found _ _, Cells.filled_overwrite r (Nat.not_lt.mp fits)⟩

theorem elemDrop_drops (running : s.RunsIn inst)
    (known : inst.elems[index.toNat]? = some segment) (held' : s.store.elems[segment]? = some seg) :
    ∃ store, elemDrop index s = .ok () { s with store := store } ∧
      Exchanged s.store.elems store.elems segment { seg with refs := [] } ∧
      store = { s.store with elems := store.elems } := by
  obtain ⟨id, home, held⟩ := running
  refine ⟨s.store.dropElem segment, ?_, exchanged_modify held' fun e => { e with refs := [] }, rfl⟩
  simp only [elemDrop, elemAddress, bind, EStateM.bind, address_eq home held .noElement known]
  rfl

end Tables

/-! ## Dropped segments -/

section Dropped

variable {addr segment : Addr} {m : MemInst} {t : TableInst}

/-- From a segment that was dropped nothing can be had, and nothing is what it gives. -/
theorem memoryInit_of_dropped (running : s.RunsIn inst)
    (known : inst.datas[index.toNat]? = some segment)
    (dropped : s.store.datas[segment]? = some ⟨[]⟩) (here : inst.memories[0]? = some addr)
    (found : s.store.memories[addr]? = some m)
    (top : s.operands = .i32 n :: .i32 x :: .i32 d :: rest) :
    Moves (memoryInit index) s rest .memoryBounds
      (0 < x.toNat + n.toNat ∨ m.data.size < d.toNat + n.toNat) (· = s.store) := by
  refine (memoryInit_moves running known dropped here found top).mono ?_
  intro store inside ⟨data, written, copied⟩
  have nothing := copied.eq_of_nil (not_or.mp inside).1
  exact (nothing ▸ written).eq_of_same found

theorem tableInit_of_dropped {seg : ElemInst} (running : s.RunsIn inst)
    (known : inst.elems[index.toNat]? = some segment)
    (dropped : s.store.elems[segment]? = some { seg with refs := [] })
    (here : inst.tables[from_.toNat]? = some addr) (found : s.store.tables[addr]? = some t)
    (top : s.operands = .i32 n :: .i32 x :: .i32 d :: rest) :
    Moves (tableInit index from_) s rest .tableBounds
      (0 < x.toNat + n.toNat ∨ t.elems.size < d.toNat + n.toNat) (· = s.store) := by
  refine (tableInit_moves running known dropped here found top).mono ?_
  intro store inside ⟨elems, written, copied⟩
  have nothing := copied.eq_of_nil (not_or.mp inside).1
  exact (nothing ▸ written).eq_of_same found

end Dropped

end Step

/-! ## The instructions -/

namespace Scope

/-- The bulk instructions do what they should, whatever the store of the scope holds and
whatever the operands are. -/
structure BulkExact (s : Scope) (inst : ModuleInstance) : Prop where
  memoryCopy : ∀ (options : Options) (i : Instruction) (addr : Addr) (m : MemInst)
      (d x n : UInt32) (rest : List Value),
    i.miscOp? = some .memoryCopy → inst.memories[0]? = some addr →
    s.store.memories[addr]? = some m → s.operands = .i32 n :: .i32 x :: .i32 d :: rest →
    Step.Moves (Step.plain options i) s rest .memoryBounds
      (m.data.size < x.toNat + n.toNat ∨ m.data.size < d.toNat + n.toNat)
      fun store => ∃ data, s.store.WithMemory store addr m data ∧
        Cells.Copied m.data.toList x.toNat m.data data d.toNat n.toNat
  memoryInit : ∀ (options : Options) (i : Instruction) (addr segment : Addr) (m : MemInst)
      (seg : DataInst) (d x n : UInt32) (rest : List Value),
    i.miscOp? = some .memoryInit → inst.datas[(i.miscIndex 0).toNat]? = some segment →
    s.store.datas[segment]? = some seg → inst.memories[0]? = some addr →
    s.store.memories[addr]? = some m → s.operands = .i32 n :: .i32 x :: .i32 d :: rest →
    Step.Moves (Step.plain options i) s rest .memoryBounds
      (seg.data.length < x.toNat + n.toNat ∨ m.data.size < d.toNat + n.toNat)
      fun store => ∃ data, s.store.WithMemory store addr m data ∧
        Cells.Copied seg.data x.toNat m.data data d.toNat n.toNat
  memoryFill : ∀ (options : Options) (i : Instruction) (addr : Addr) (m : MemInst)
      (d x n : UInt32) (rest : List Value),
    i.miscOp? = some .memoryFill → inst.memories[0]? = some addr →
    s.store.memories[addr]? = some m → s.operands = .i32 n :: .i32 x :: .i32 d :: rest →
    Step.Moves (Step.plain options i) s rest .memoryBounds (m.data.size < d.toNat + n.toNat)
      fun store => ∃ data, s.store.WithMemory store addr m data ∧
        Cells.Filled x.toUInt8 m.data data d.toNat n.toNat
  tableCopy : ∀ (options : Options) (i : Instruction) (addr source : Addr) (t t' : TableInst)
      (d x n : UInt32) (rest : List Value),
    i.miscOp? = some .tableCopy → inst.tables[(i.miscIndex 0).toNat]? = some addr →
    inst.tables[(i.miscIndex 1).toNat]? = some source → s.store.tables[addr]? = some t →
    s.store.tables[source]? = some t' → s.operands = .i32 n :: .i32 x :: .i32 d :: rest →
    Step.Moves (Step.plain options i) s rest .tableBounds
      (t'.elems.size < x.toNat + n.toNat ∨ t.elems.size < d.toNat + n.toNat)
      fun store => ∃ elems, s.store.WithTable store addr t elems ∧
        Cells.Copied t'.elems.toList x.toNat t.elems elems d.toNat n.toNat
  tableInit : ∀ (options : Options) (i : Instruction) (addr segment : Addr) (t : TableInst)
      (seg : ElemInst) (d x n : UInt32) (rest : List Value),
    i.miscOp? = some .tableInit → inst.elems[(i.miscIndex 0).toNat]? = some segment →
    s.store.elems[segment]? = some seg → inst.tables[(i.miscIndex 1).toNat]? = some addr →
    s.store.tables[addr]? = some t → s.operands = .i32 n :: .i32 x :: .i32 d :: rest →
    Step.Moves (Step.plain options i) s rest .tableBounds
      (seg.refs.length < x.toNat + n.toNat ∨ t.elems.size < d.toNat + n.toNat)
      fun store => ∃ elems, s.store.WithTable store addr t elems ∧
        Cells.Copied seg.refs x.toNat t.elems elems d.toNat n.toNat
  tableFill : ∀ (options : Options) (i : Instruction) (addr : Addr) (t : TableInst)
      (d n : UInt32) (r : Ref) (rest : List Value),
    i.miscOp? = some .tableFill → inst.tables[(i.miscIndex 0).toNat]? = some addr →
    s.store.tables[addr]? = some t → s.operands = .i32 n :: .ref r :: .i32 d :: rest →
    Step.Moves (Step.plain options i) s rest .tableBounds (t.elems.size < d.toNat + n.toNat)
      fun store => ∃ elems, s.store.WithTable store addr t elems ∧
        Cells.Filled r t.elems elems d.toNat n.toNat
  /-- To drop a segment leaves it empty, and everything else as it is. -/
  dataDrop : ∀ (options : Options) (i : Instruction) (segment : Addr) (seg : DataInst),
    i.miscOp? = some .dataDrop → inst.datas[(i.miscIndex 0).toNat]? = some segment →
    s.store.datas[segment]? = some seg →
    ∃ store, Step.plain options i s = .ok () { s with store := store } ∧
      Exchanged s.store.datas store.datas segment ⟨[]⟩ ∧
      store = { s.store with datas := store.datas }
  /-- From a dropped segment only nothing can be had, which changes nothing. -/
  dropped : ∀ (options : Options) (i : Instruction) (addr segment : Addr) (m : MemInst)
      (d x n : UInt32) (rest : List Value),
    i.miscOp? = some .memoryInit → inst.datas[(i.miscIndex 0).toNat]? = some segment →
    s.store.datas[segment]? = some ⟨[]⟩ → inst.memories[0]? = some addr →
    s.store.memories[addr]? = some m → s.operands = .i32 n :: .i32 x :: .i32 d :: rest →
    Step.Moves (Step.plain options i) s rest .memoryBounds
      (0 < x.toNat + n.toNat ∨ m.data.size < d.toNat + n.toNat) (· = s.store)
  elemDrop : ∀ (options : Options) (i : Instruction) (segment : Addr) (seg : ElemInst),
    i.miscOp? = some .elemDrop → inst.elems[(i.miscIndex 0).toNat]? = some segment →
    s.store.elems[segment]? = some seg →
    ∃ store, Step.plain options i s = .ok () { s with store := store } ∧
      Exchanged s.store.elems store.elems segment { seg with refs := [] } ∧
      store = { s.store with elems := store.elems }
  droppedRefs : ∀ (options : Options) (i : Instruction) (addr segment : Addr) (t : TableInst)
      (seg : ElemInst) (d x n : UInt32) (rest : List Value),
    i.miscOp? = some .tableInit → inst.elems[(i.miscIndex 0).toNat]? = some segment →
    s.store.elems[segment]? = some { seg with refs := [] } →
    inst.tables[(i.miscIndex 1).toNat]? = some addr → s.store.tables[addr]? = some t →
    s.operands = .i32 n :: .i32 x :: .i32 d :: rest →
    Step.Moves (Step.plain options i) s rest .tableBounds
      (0 < x.toNat + n.toNat ∨ t.elems.size < d.toNat + n.toNat) (· = s.store)

/-- The bulk operations are exact in every scope whose code belongs to an instance. -/
theorem bulk_exact {s : Scope} {inst : ModuleInstance} (running : s.RunsIn inst) :
    s.BulkExact inst where
  memoryCopy options i addr m d x n rest known here found top := by
    rw [Instruction.plain_misc known options 0x0a rfl]
    exact Step.memoryCopy_moves running here found top
  memoryInit options i addr segment m seg d x n rest known listed held here found top := by
    rw [Instruction.plain_misc known options 0x08 rfl]
    exact Step.memoryInit_moves running listed held here found top
  memoryFill options i addr m d x n rest known here found top := by
    rw [Instruction.plain_misc known options 0x0b rfl]
    exact Step.memoryFill_moves running here found top
  tableCopy options i addr source t t' d x n rest known here there found found' top := by
    rw [Instruction.plain_misc known options 0x0e rfl]
    exact Step.tableCopy_moves running here there found found' top
  tableInit options i addr segment t seg d x n rest known listed held here found top := by
    rw [Instruction.plain_misc known options 0x0c rfl]
    exact Step.tableInit_moves running listed held here found top
  tableFill options i addr t d n r rest known here found top := by
    rw [Instruction.plain_misc known options 0x11 rfl]
    exact Step.tableFill_moves running here found top
  dataDrop options i segment seg known listed held := by
    rw [Instruction.plain_misc known options 0x09 rfl]
    exact Step.dataDrop_drops running listed held
  dropped options i addr segment m d x n rest known listed held here found top := by
    rw [Instruction.plain_misc known options 0x08 rfl]
    exact Step.memoryInit_of_dropped running listed held here found top
  elemDrop options i segment seg known listed held := by
    rw [Instruction.plain_misc known options 0x0d rfl]
    exact Step.elemDrop_drops running listed held
  droppedRefs options i addr segment t seg d x n rest known listed held here found top := by
    rw [Instruction.plain_misc known options 0x0c rfl]
    exact Step.tableInit_of_dropped running listed held here found top

/-- An instance with a memory, and with a table under two indices. -/
def aliased : ModuleInstance :=
  { tables := #[0, 0], memories := #[0], elems := #[0], datas := #[0] }

/-- The code of that instance is about to copy the first four of five cells one cell up. -/
def overlapping : Scope where
  operands := [.i32 4, .i32 0, .i32 1]
  frame := some ⟨some 0, #[], 0⟩
  store :=
    { tables := #[⟨⟨.funcref, ⟨5, none⟩⟩, #[.func 0, .func 1, .func 2, .func 3, .func 4]⟩]
      memories := #[⟨⟨⟨1, none⟩⟩, ⟨#[10, 11, 12, 13, 14]⟩⟩]
      elems := #[⟨.funcref, [.func 7]⟩]
      datas := #[⟨[]⟩]
      instances := #[aliased] }

/-- Copying in place, in the memory and between the two indices of the table. -/
theorem bulk_exact_overlapping :
    overlapping.RunsIn aliased ∧ overlapping.BulkExact aliased ∧
      (∃ s', Step.plain {} (.plain Opcode.misc (some (.misc 0x0a []))) overlapping = .ok () s' ∧
        s'.store.memories[0]?.map (·.data) = some #[10, 10, 11, 12, 13]) ∧
      ∃ s', Step.plain {} (.plain Opcode.misc (some (.misc 0x0e [0, 1]))) overlapping =
          .ok () s' ∧
        s'.store.tables[0]?.map (·.elems) =
          some #[.func 0, .func 0, .func 1, .func 2, .func 3] := by
  have running : overlapping.RunsIn aliased := ⟨0, rfl, rfl⟩
  refine ⟨running, bulk_exact running, ?_, ?_⟩
  · rw [Instruction.plain_misc rfl {} 0x0a rfl]
    exact ⟨_, rfl, rfl⟩
  · rw [Instruction.plain_misc rfl {} 0x0e rfl]
    exact ⟨_, rfl, rfl⟩

end Scope

end WasmMachine
