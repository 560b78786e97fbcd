/-
# Growing is exact

To grow something by a number is refused exactly when the new size would exceed the limit;
then nothing changes and the answer is -1.  Otherwise the answer is the old size, all old
contents stay where they are, and what is new stands behind them: zeros in a memory, copies
of a given reference in a table.  So the size that an importer found acceptable when it was
linked stays acceptable, whoever grows what it imports.
-/

import WasmMachine.Proofs.Evolution.Limits
import WasmMachine.Proofs.Memory.Surroundings

namespace WasmMachine

/-- What an attempt to grow by `count` answers: -1 exactly when that would exceed the limit,
and the old size otherwise. -/
structure Answers (size count limit : Nat) (answer : UInt32) (Unchanged Grown : Prop) : Prop where
  refused : answer = -1 ↔ limit < size + count
  unchanged : answer = -1 → Unchanged
  grown : answer ≠ -1 → answer.toNat = size ∧ Grown

namespace Answers

variable {size count limit : Nat} {Unchanged Grown : Prop}

/-- A limit that is below the number that -1 stands for keeps the answers apart. -/
theorem of_room (room : size + count ≤ limit) (small : limit < 2 ^ 32 - 1) (grown : Grown) :
    Answers size count limit (UInt32.ofNat size) Unchanged Grown := by
  have exact : (UInt32.ofNat size).toNat = size := UInt32.toNat_ofNat_of_lt' (by
    show size < 2 ^ 32
    omega)
  have different : UInt32.ofNat size ≠ -1 := by
    intro same
    rw [same] at exact
    have value : (-1 : UInt32).toNat = 2 ^ 32 - 1 := rfl
    omega
  exact ⟨⟨fun same => absurd same different, fun more => absurd room (Nat.not_le.mpr more)⟩,
    fun same => absurd same different, fun _ => ⟨exact, grown⟩⟩

theorem of_full (full : limit < size + count) (unchanged : Unchanged) :
    Answers size count limit (-1) Unchanged Grown :=
  ⟨⟨fun _ => full, fun _ => rfl⟩, fun _ => unchanged, fun different => absurd rfl different⟩

end Answers

/-! ## What is new -/

namespace Store

/-- A store is another one in which a memory has grown by a number of pages of zeros. -/
structure MemoryGrown (s s' : Store) (addr : Addr) (m : MemInst) (count : Nat) : Prop where
  here : s'.memories[addr]? =
    some (m.withData (m.data ++ Array.replicate (count * pageSize) 0))
  others : ∀ other, other ≠ addr → s'.memories[other]? = s.memories[other]?
  elsewhere : s' = { s with memories := s'.memories }

/-- A store is another one in which a table has grown by copies of a reference. -/
structure TableGrown (s s' : Store) (addr : Addr) (t : TableInst) (count : Nat) (r : Ref) :
    Prop where
  here : s'.tables[addr]? = some { t with elems := t.elems ++ Array.replicate count r }
  others : ∀ other, other ≠ addr → s'.tables[other]? = s.tables[other]?
  elsewhere : s' = { s with tables := s'.tables }

variable {s : Store} {addr : Addr} {m : MemInst} {t : TableInst}

theorem memoryGrown_growMemory (found : s.memories[addr]? = some m) (count : Nat) :
    s.MemoryGrown (s.growMemory addr count) addr m count :=
  have grown := exchanged_modify found fun m => m.grow count
  ⟨m.grow_eq count ▸ grown.here, grown.others, rfl⟩

theorem tableGrown_growTable (found : s.tables[addr]? = some t) (count : Nat) (r : Ref) :
    s.TableGrown (s.growTable addr count r) addr t count r :=
  have grown := exchanged_modify found fun t => t.grow count r
  ⟨grown.here, grown.others, rfl⟩

end Store

/-! ## Growing from code -/

namespace Step

variable {s : Scope} {id : InstanceId} {inst : ModuleInstance}

/-- Code that grows its memory gets an exact answer. -/
theorem memoryGrow_answers {addr : Addr} {m : MemInst} {count : UInt32} {rest : List Value}
    (home : s.frame.bind (·.home) = some id) (held : s.store.instances[id]? = some inst)
    (there : inst.memories[0]? = some addr) (found : s.store.memories[addr]? = some m)
    (top : s.operands = .i32 count :: rest) :
    Ends memoryGrow s
      (fun _ s' => ∃ answer, s'.operands = .i32 answer :: rest ∧ s'.frame = s.frame ∧
        Answers m.pages count.toNat m.limit answer (s'.store = s.store)
          (s.store.MemoryGrown s'.store addr m count.toNat))
      fun _ _ => False := by
  obtain ⟨operands, frame, store⟩ := s
  obtain rfl : operands = .i32 count :: rest := top
  unfold memoryGrow
  apply Ends.step (address_eq home held .noMemory there)
  apply Ends.step (fetch_eq (.noMemory 0) found)
  apply Ends.step rfl
  by_cases room : m.mayGrow count.toNat
  · rw [if_pos room]
    have fits : m.pages + count.toNat ≤ m.limit := of_decide_eq_true room
    refine Ends.step rfl (Ends.of_ok rfl ⟨_, rfl, rfl, .of_room fits ?_ ?_⟩)
    · exact Nat.lt_of_le_of_lt m.limit_le.1 (by decide)
    · exact Store.memoryGrown_growMemory found count.toNat
  · rw [if_neg room]
    have full : m.limit < m.pages + count.toNat :=
      Nat.not_le.mp fun fits => room (decide_eq_true fits)
    exact Ends.of_ok rfl ⟨-1, rfl, rfl, .of_full full rfl⟩

/-- Code that grows a table of its instance gets an exact answer. -/
theorem tableGrow_answers {index : UInt32} {addr : Addr} {t : TableInst} {count : UInt32} {r : Ref}
    {rest : List Value} (home : s.frame.bind (·.home) = some id)
    (held : s.store.instances[id]? = some inst) (there : inst.tables[index.toNat]? = some addr)
    (found : s.store.tables[addr]? = some t) (top : s.operands = .i32 count :: .ref r :: rest) :
    Ends (tableGrow index) s
      (fun _ s' => ∃ answer, s'.operands = .i32 answer :: rest ∧ s'.frame = s.frame ∧
        Answers t.elems.size count.toNat t.limit answer (s'.store = s.store)
          (s.store.TableGrown s'.store addr t count.toNat r))
      fun _ _ => False := by
  obtain ⟨operands, frame, store⟩ := s
  obtain rfl : operands = .i32 count :: .ref r :: rest := top
  unfold tableGrow
  apply Ends.step (address_eq home held .noTable there)
  apply Ends.step (fetch_eq (.noTable index) found)
  apply Ends.step rfl
  apply Ends.step rfl
  by_cases room : t.mayGrow count.toNat
  · rw [if_pos room]
    have fits : t.elems.size + count.toNat ≤ t.limit := of_decide_eq_true room
    refine Ends.step rfl (Ends.of_ok rfl ⟨_, rfl, rfl, .of_room fits ?_ ?_⟩)
    · exact Nat.lt_of_le_of_lt t.limit_le.1 (by decide)
    · exact Store.tableGrown_growTable found count.toNat r
  · rw [if_neg room]
    have full : t.limit < t.elems.size + count.toNat :=
      Nat.not_le.mp fun fits => room (decide_eq_true fits)
    exact Ends.of_ok rfl ⟨-1, rfl, rfl, .of_full full rfl⟩

end Step

/-! ## Growing through a view -/

/-- A view grows a memory exactly when code could, and gives its old size. -/
theorem MemoryView.grow_spec {view : MemoryView} {s : Store} {m : MemInst}
    (found : s.memories[view.addr]? = some m) (count : UInt32) :
    (view.grow s count = none ↔ m.limit < m.pages + count.toNat) ∧
      ∀ old s', view.grow s count = some (old, s') →
        old = m.pages ∧ s.MemoryGrown s' view.addr m count.toNat := by
  unfold grow
  simp only [found]
  by_cases room : m.mayGrow count.toNat
  · have fits : m.pages + count.toNat ≤ m.limit := of_decide_eq_true room
    rw [if_pos room]
    refine ⟨⟨fun none => (by cases none), fun full => absurd fits (Nat.not_le.mpr full)⟩, ?_⟩
    intro old s' grown
    cases grown
    exact ⟨rfl, Store.memoryGrown_growMemory found count.toNat⟩
  · rw [if_neg room]
    refine ⟨⟨fun _ => ?_, fun _ => rfl⟩, fun old s' grown => (by cases grown)⟩
    exact Nat.not_le.mp fun fits => room (decide_eq_true fits)

/-! ## What importers rely on -/

/-- The size of something that is imported is what the import asked for. -/
structure Limits.Holds (want : Limits) (size : Nat) : Prop where
  min : want.min.toNat ≤ size
  max : ∀ most, want.max = some most → size ≤ most.toNat

/-- A size that fits now, of something that keeps to its own bounds. -/
theorem Limits.Holds.of_fits {want own : Limits} {size size' : Nat}
    (fits : Limits.fits ⟨UInt64.ofNat size, own.max⟩ want = true) (grows : size ≤ size')
    (bounded : ∀ most, own.max = some most → size' ≤ most.toNat) : want.Holds size' := by
  unfold Limits.fits at fits
  obtain ⟨atLeast, atMost⟩ := Bool.and_eq_true_iff.mp fits
  have atLeast : want.min ≤ UInt64.ofNat size := of_decide_eq_true atLeast
  constructor
  · calc want.min.toNat ≤ (UInt64.ofNat size).toNat := UInt64.le_iff_toNat_le.mp atLeast
      _ = size % 2 ^ 64 := UInt64.toNat_ofNat
      _ ≤ size := Nat.mod_le _ _
      _ ≤ size' := grows
  · intro most stated
    rw [stated] at atMost
    cases known : own.max with
    | none =>
        simp only [known] at atMost
        cases atMost
    | some least =>
        simp only [known] at atMost
        exact Nat.le_trans (bounded least known)
          (UInt64.le_iff_toNat_le.mp (of_decide_eq_true atMost))

/-- What an import of a table or a memory is bound to has a size that the import allows. -/
structure Import.Kept (imp : Import) (found : Extern) (s : Store) : Prop where
  table : imp.desc.kind = .table → ∃ want t, imp.desc.table = some want ∧
    s.tables[found.addr]? = some t ∧ want.limits.Holds t.elems.size
  memory : imp.desc.kind = .memory → ∃ want m, imp.desc.memory = some want ∧
    s.memories[found.addr]? = some m ∧ want.limits.Holds m.pages

/-- An import that was good when it was resolved is good in every later store that is within
its limits. -/
theorem Import.Kept.of_checkImport {imp : Import} {found : Extern} {s s' : Store}
    {types : List FuncType} (passed : s.checkImport types imp.desc found = .ok ())
    (retains : s.Retains s') (bounded : s'.Bounded) : imp.Kept found s' where
  table kind := by
    obtain ⟨t, want, held, wanted, -, fits⟩ := Store.fits_of_checkImport_table kind passed
    obtain ⟨t', held', becomes⟩ := retains.tables _ t held
    refine ⟨want, t', wanted, held', .of_fits fits becomes.size fun most stated => ?_⟩
    exact bounded.tables _ t' held' most (becomes.type ▸ stated)
  memory kind := by
    obtain ⟨m, want, held, wanted, fits⟩ := Store.fits_of_checkImport_memory kind passed
    obtain ⟨m', held', becomes⟩ := retains.memories _ m held
    have grows : m.pages ≤ m'.pages := Nat.div_le_div_right becomes.size
    refine ⟨want, m', wanted, held', .of_fits fits grows fun most stated => ?_⟩
    exact (bounded.memories _ m' held').max most (becomes.type ▸ stated)

namespace Linker

variable {start l l' : Linker}

theorem bounded_of_operations (operations : Relation.ReflTransGen Proper l l')
    (bounded : l.machine.store.Bounded) : l'.machine.store.Bounded := by
  induction operations with
  | refl => exact bounded
  | tail _ operation ih => exact operation.bounded ih

/-- The sizes of memories and tables of a linker are within their limits, also while code
runs; growing is exact; and the imports of a module keep what they were resolved for at every
later point, in the middle of an operation too. -/
structure WithinLimits (l : Linker) : Prop where
  sizes : ∀ s, l.machine.store.Evolves s → s.Bounded
  memoryGrow : ∀ (s : Scope) (id : InstanceId) (inst : ModuleInstance) (addr : Addr) (m : MemInst)
      (count : UInt32) (rest : List Value),
    s.frame.bind (·.home) = some id → s.store.instances[id]? = some inst →
    inst.memories[0]? = some addr → s.store.memories[addr]? = some m →
    s.operands = .i32 count :: rest →
    Ends Step.memoryGrow s
      (fun _ s' => ∃ answer, s'.operands = .i32 answer :: rest ∧ s'.frame = s.frame ∧
        Answers m.pages count.toNat m.limit answer (s'.store = s.store)
          (s.store.MemoryGrown s'.store addr m count.toNat))
      fun _ _ => False
  tableGrow : ∀ (s : Scope) (id : InstanceId) (inst : ModuleInstance) (index : UInt32) (addr : Addr)
      (t : TableInst) (count : UInt32) (r : Ref) (rest : List Value),
    s.frame.bind (·.home) = some id → s.store.instances[id]? = some inst →
    inst.tables[index.toNat]? = some addr → s.store.tables[addr]? = some t →
    s.operands = .i32 count :: .ref r :: rest →
    Ends (Step.tableGrow index) s
      (fun _ s' => ∃ answer, s'.operands = .i32 answer :: rest ∧ s'.frame = s.frame ∧
        Answers t.elems.size count.toNat t.limit answer (s'.store = s.store)
          (s.store.TableGrown s'.store addr t count.toNat r))
      fun _ _ => False
  viewGrow : ∀ (view : MemoryView) (s : Store) (m : MemInst) (count : UInt32),
    s.memories[view.addr]? = some m →
    (view.grow s count = none ↔ m.limit < m.pages + count.toNat) ∧
      ∀ old s', view.grow s count = some (old, s') →
        old = m.pages ∧ s.MemoryGrown s' view.addr m count.toNat
  imports : ∀ (m : Module) (externs : List Extern), l.resolve m = .ok externs →
    ∀ l', Relation.ReflTransGen Proper l l' → ∀ s, l'.machine.store.Evolves s →
    ∀ (i : Nat) (imp : Import) (found : Extern), m.imports[i]? = some imp →
      externs[i]? = some found → imp.Kept found s

/-- From an empty store on, sizes stay within their limits for ever, growing is exact, and all
importers keep what they were promised. -/
theorem within_limits (empty : start.machine.store = {}) (unnamed : start.registry = [])
    (before : Relation.ReflTransGen Proper start l) : l.WithinLimits := by
  have bounded : l.machine.store.Bounded :=
    bounded_of_operations before (empty ▸ Store.bounded_empty)
  have orderly : l.Orderly := ((orderly_of_empty empty unnamed).operations before).2
  refine {
    sizes := fun s evolves => bounded.evolve evolves
    memoryGrow := fun s id inst addr m count rest home held there found top =>
      Step.memoryGrow_answers home held there found top
    tableGrow := fun s id inst index addr t count r rest home held there found top =>
      Step.tableGrow_answers home held there found top
    viewGrow := fun view s m count found => view.grow_spec found count
    imports := ?_ }
  intro m externs resolved l' operations s evolves i imp found listed place
  have retains := (orderly.operations operations).1.toRetains.trans evolves.retains
  have bounded' := (bounded_of_operations operations bounded).evolve evolves
  obtain ⟨imp', listed', bound⟩ := exists_getElem?_of_forall₂ (forall₂_of_resolve resolved) place
  cases listed.symm.trans listed'
  exact .of_checkImport (checkImport_of_resolveImport bound).2 retains bounded'

/-- A linker in which the embedder has defined a table of one to three references. -/
def tableLinker : Linker :=
  after (Link.hostModule "env" [⟨"refs", .table ⟨.funcref, ⟨1, some 3⟩⟩⟩])
    (Embedding.new {}).linker

theorem within_limits_tableLinker : tableLinker.WithinLimits := by
  refine within_limits rfl rfl (.single (.hostModule fun d mem => ?_))
  cases List.mem_singleton.mp mem
  intro most stated
  cases stated
  decide

end Linker

end WasmMachine
