/-
# What a failure to link leaves behind

A failed instantiation is not taken back: the new instance and its definitions stay in the
store, without a name.  But what was there before is hardly touched.  When an import does
not resolve nothing at all has changed.  Later on, names and the machine's stack are as they
were, and of what was in the store only imported tables and memories may differ, each because
an active segment in front of the failing point names it; what the start function did stays
done as well.  A module of the embedder that is refused leaves no trace.

The module may be any tree, and the linker may be in any state.
-/

import WasmMachine.Embedding.Basic
import WasmMachine.Proofs.Evolution.Extension
import WasmMachine.Proofs.Linking.Following
import WasmMachine.Proofs.Reference.Invocation
import WasmMachine.Proofs.Safety.HostModule

namespace WasmMachine

/-! ## What segments may have written -/

/-- Applying an element segment comes before a stage. -/
def Stage.BehindElement : Stage → Nat → Prop
  | .definitions, _ => False
  | .element k, i => i < k
  | .data _, _ => True
  | .start, _ => True

/-- Applying a data segment comes before a stage. -/
def Stage.BehindData : Stage → Nat → Prop
  | .definitions, _ => False
  | .element _, _ => False
  | .data k, i => i < k
  | .start, _ => True

/-- A table is imported, and an active segment that is applied before a stage names it. -/
def Module.FillsTable (m : Module) (externs : List Extern) (inst : ModuleInstance) (stage : Stage)
    (addr : Addr) : Prop :=
  ⟨.table, addr⟩ ∈ externs ∧ ∃ i e, m.elements[i]? = some e ∧ e.mode = .active ∧
    stage.BehindElement i ∧ inst.tables[e.table.toNat]? = some addr

/-- A memory is imported, and an active segment that is applied before a stage names it. -/
def Module.FillsMemory (m : Module) (externs : List Extern) (inst : ModuleInstance) (stage : Stage)
    (addr : Addr) : Prop :=
  ⟨.memory, addr⟩ ∈ externs ∧ ∃ i d, m.data[i]? = some d ∧ d.mode = .active ∧
    stage.BehindData i ∧ inst.memories[d.memory.toNat]? = some addr

/-- A table with other entries. -/
structure TableInst.Refilled (t t' : TableInst) : Prop where
  type : t'.type = t.type
  size : t'.elems.size = t.elems.size

/-- A memory with other bytes. -/
structure MemInst.Refilled (m m' : MemInst) : Prop where
  type : m'.type = m.type
  size : m'.data.size = m.data.size

/-- Everything of a store is in another one as it was, but for the contents of some tables
and memories. -/
structure Store.Spared (Tables Memories : Addr → Prop) (s s' : Store) : Prop where
  funcs : Persists Eq s.funcs s'.funcs
  globals : Persists Eq s.globals s'.globals
  elems : Persists Eq s.elems s'.elems
  datas : Persists Eq s.datas s'.datas
  instances : Persists Eq s.instances s'.instances
  tables : Persists TableInst.Refilled s.tables s'.tables
  memories : Persists MemInst.Refilled s.memories s'.memories
  otherTables : ∀ addr < s.tables.size, ¬ Tables addr → s'.tables[addr]? = s.tables[addr]?
  otherMemories : ∀ addr < s.memories.size, ¬ Memories addr →
    s'.memories[addr]? = s.memories[addr]?

/-- What an instance has is imported or was made for it: it stands behind what a store had. -/
structure ModuleInstance.Grounded (externs : List Extern) (s : Store) (inst : ModuleInstance) :
    Prop where
  tables : ∀ addr ∈ inst.tables, ⟨.table, addr⟩ ∈ externs ∨ s.tables.size ≤ addr
  memories : ∀ addr ∈ inst.memories, ⟨.memory, addr⟩ ∈ externs ∨ s.memories.size ≤ addr
  elems : ∀ addr ∈ inst.elems, s.elems.size ≤ addr
  datas : ∀ addr ∈ inst.datas, s.datas.size ≤ addr

namespace ModuleInstance

variable {externs : List Extern} {s : Store} {inst : ModuleInstance}

theorem Grounded.addAddress (grounded : inst.Grounded externs s) {e : Extern}
    (tables : e.kind = .table → e ∈ externs ∨ s.tables.size ≤ e.addr)
    (memories : e.kind = .memory → e ∈ externs ∨ s.memories.size ≤ e.addr) :
    (inst.addAddress e).Grounded externs s := by
  obtain ⟨kind, addr⟩ := e
  unfold ModuleInstance.addAddress
  split
  · next same => exact { grounded with }
  · next same =>
      obtain rfl : kind = .table := same
      exact { grounded with tables := Array.forall_mem_push.mpr ⟨tables rfl, grounded.tables⟩ }
  · next same =>
      obtain rfl : kind = .memory := same
      exact { grounded with
        memories := Array.forall_mem_push.mpr ⟨memories rfl, grounded.memories⟩ }
  · exact { grounded with }
  · exact grounded

/-- Functions and globals are of no account. -/
theorem Grounded.addOther (grounded : inst.Grounded externs s) {e : Extern}
    (table : e.kind ≠ .table) (memory : e.kind ≠ .memory) :
    (inst.addAddress e).Grounded externs s :=
  grounded.addAddress (fun same => absurd same table) fun same => absurd same memory

theorem grounded_fresh (m : Module) (name : String) (externs : List Extern) (s : Store) :
    (fresh m name externs).Grounded externs s := by
  have bare : Grounded externs s { name := name, types := m.types } :=
    ⟨fun addr mem => absurd mem (Array.not_mem_empty addr),
      fun addr mem => absurd mem (Array.not_mem_empty addr),
      fun addr mem => absurd mem (Array.not_mem_empty addr),
      fun addr mem => absurd mem (Array.not_mem_empty addr)⟩
  exact List.foldlRecOn (motive := (Grounded externs s)) externs addAddress bare
    fun _ grounded _ imported => grounded.addAddress (fun _ => .inl imported) fun _ => .inl imported

end ModuleInstance

namespace Store

/-- Everything of a store is in another one as it was. Of instances nothing is said. -/
structure Under (s s' : Store) : Prop where
  funcs : Persists Eq s.funcs s'.funcs
  tables : Persists Eq s.tables s'.tables
  memories : Persists Eq s.memories s'.memories
  globals : Persists Eq s.globals s'.globals
  elems : Persists Eq s.elems s'.elems
  datas : Persists Eq s.datas s'.datas

variable {s s₁ s₂ : Store} {Tables Memories Tables' Memories' : Addr → Prop} {m : Module}
  {id : InstanceId} {externs : List Extern} {inst : ModuleInstance} {stage : Stage}

theorem Under.refl (s : Store) : s.Under s where
  funcs := .refl (fun _ => rfl) _
  tables := .refl (fun _ => rfl) _
  memories := .refl (fun _ => rfl) _
  globals := .refl (fun _ => rfl) _
  elems := .refl (fun _ => rfl) _
  datas := .refl (fun _ => rfl) _

/-- What is added to a store comes on top. -/
theorem Addition.under (addition : s.Addition m id s₁) : s.Under s₁ := by
  cases addition with
  | func _ _ _ => exact { Under.refl s with funcs := .push (fun _ => rfl) _ _ }
  | table _ => exact { Under.refl s with tables := .push (fun _ => rfl) _ _ }
  | memory _ => exact { Under.refl s with memories := .push (fun _ => rfl) _ _ }
  | global _ _ _ _ => exact { Under.refl s with globals := .push (fun _ => rfl) _ _ }
  | elem _ _ _ => exact { Under.refl s with elems := .push (fun _ => rfl) _ _ }
  | data _ => exact { Under.refl s with datas := .push (fun _ => rfl) _ _ }
  | «export» _ _ _ => exact { Under.refl s with }

namespace Spared

theorem refl (s : Store) : s.Spared Tables Memories s where
  funcs := .refl (fun _ => rfl) _
  globals := .refl (fun _ => rfl) _
  elems := .refl (fun _ => rfl) _
  datas := .refl (fun _ => rfl) _
  instances := .refl (fun _ => rfl) _
  tables := .refl (fun _ => ⟨rfl, rfl⟩) _
  memories := .refl (fun _ => ⟨rfl, rfl⟩) _
  otherTables _ _ _ := rfl
  otherMemories _ _ _ := rfl

theorem mono (spared : s.Spared Tables Memories s₁) (tables : ∀ addr, Tables addr → Tables' addr)
    (memories : ∀ addr, Memories addr → Memories' addr) : s.Spared Tables' Memories' s₁ :=
  { spared with
    otherTables := fun addr inside other =>
      spared.otherTables addr inside fun filled => other (tables addr filled)
    otherMemories := fun addr inside other =>
      spared.otherMemories addr inside fun filled => other (memories addr filled) }

theorem addInstance (inst : ModuleInstance) : s.Spared Tables Memories (s.addInstance inst).2 :=
  { Spared.refl s with instances := .push (fun _ => rfl) _ inst }

/-- What comes on top, with the new instance, spares everything. -/
theorem add (spared : s.Spared Tables Memories s₁)
    (addition : s₁.Addition m s.instances.size s₂) : s.Spared Tables Memories s₂ where
  funcs := spared.funcs.trans Eq.trans addition.under.funcs
  globals := spared.globals.trans Eq.trans addition.under.globals
  elems := spared.elems.trans Eq.trans addition.under.elems
  datas := spared.datas.trans Eq.trans addition.under.datas
  instances := by
    obtain ⟨f, same⟩ := addition.instances
    rw [same]
    exact spared.instances.modify_behind (Nat.le_refl _) f
  tables := spared.tables.trans_eq addition.under.tables
  memories := spared.memories.trans_eq addition.under.memories
  otherTables addr inside other :=
    (addition.under.tables.getElem?_eq (Nat.lt_of_lt_of_le inside spared.tables.size_le)).trans
      (spared.otherTables addr inside other)
  otherMemories addr inside other :=
    (addition.under.memories.getElem?_eq (Nat.lt_of_lt_of_le inside spared.memories.size_le)).trans
      (spared.otherMemories addr inside other)

/-- What must not be filled is not what may be filled, or is new. -/
theorem ne_of_may {May : Addr → Prop} {size : Nat} {addr addr' : Addr}
    (may : May addr ∨ size ≤ addr) (inside : addr' < size) (other : ¬ May addr') :
    addr ≠ addr' := by
  rintro rfl
  rcases may with filled | new
  · exact other filled
  · exact Nat.not_lt.mpr new inside

/-- A table is filled that may be filled, or one that is new. -/
theorem writeTable (spared : s.Spared Tables Memories s₁) {addr : Addr}
    (may : Tables addr ∨ s.tables.size ≤ addr) (start : Nat) (refs : List Ref) :
    s.Spared Tables Memories (s₁.writeTable addr start refs) :=
  { spared with
    tables := spared.tables.trans
      (fun first second => ⟨second.type.trans first.type, second.size.trans first.size⟩)
      (.modify (fun _ => ⟨rfl, rfl⟩) fun t _ => ⟨rfl, Cells.size_overwrite t.elems start refs⟩)
    otherTables := by
      intro addr' inside other
      rw [← spared.otherTables addr' inside other]
      unfold Store.writeTable
      rw [Array.getElem?_modify, if_neg (ne_of_may may inside other)] }

theorem writeMemory (spared : s.Spared Tables Memories s₁) {addr : Addr}
    (may : Memories addr ∨ s.memories.size ≤ addr) (start : Nat) (bytes : List UInt8) :
    s.Spared Tables Memories (s₁.writeMemory addr start bytes) :=
  { spared with
    memories := spared.memories.trans
      (fun first second => ⟨second.type.trans first.type, second.size.trans first.size⟩)
      (.modify (fun _ => ⟨rfl, rfl⟩) fun m _ => ⟨rfl, m.size_write start bytes⟩)
    otherMemories := by
      intro addr' inside other
      rw [← spared.otherMemories addr' inside other]
      unfold Store.writeMemory
      rw [Array.getElem?_modify, if_neg (ne_of_may may inside other)] }

/-- Only a new segment is dropped. -/
theorem dropElem (spared : s.Spared Tables Memories s₁) {addr : Addr} (new : s.elems.size ≤ addr) :
    s.Spared Tables Memories (s₁.dropElem addr) :=
  { spared with elems := spared.elems.modify_behind new _ }

theorem dropData (spared : s.Spared Tables Memories s₁) {addr : Addr} (new : s.datas.size ≤ addr) :
    s.Spared Tables Memories (s₁.dropData addr) :=
  { spared with datas := spared.datas.modify_behind new _ }

end Spared

/-! ## Following the course -/

/-- The new instance has what is imported or new, and everything else is spared but for the
tables and memories that segments have filled. -/
def Undamaged (m : Module) (externs : List Extern) (s : Store) (stage : Stage) (s₁ : Store) :
    Prop :=
  ∃ inst, s₁.instances[s.instances.size]? = some inst ∧ inst.Grounded externs s ∧
    s.Spared (m.FillsTable externs inst stage) (m.FillsMemory externs inst stage) s₁

/-- An addition gives the new instance what is new. -/
theorem grounded_add (grounded : inst.Grounded externs s) (spared : s.Spared Tables Memories s₁)
    (found : s₁.instances[id]? = some inst) (addition : s₁.Addition m id s₂) :
    ∃ inst', s₂.instances[id]? = some inst' ∧ inst'.Grounded externs s := by
  have placed : ∀ (t : Store) (f : ModuleInstance → ModuleInstance),
      t.instances = s₁.instances → (f inst).Grounded externs s →
      ∃ inst', (t.modifyInstance id f).instances[id]? = some inst' ∧
        inst'.Grounded externs s := by
    intro t f same grounded
    refine ⟨f inst, ?_, grounded⟩
    unfold modifyInstance
    rw [Array.getElem?_modify, if_pos rfl, same, found, Option.map_some]
  cases addition with
  | func _ _ _ =>
      exact placed _ _ rfl (grounded.addOther (show ExternKind.func ≠ .table by decide)
        (show ExternKind.func ≠ .memory by decide))
  | table _ =>
      refine placed _ _ rfl (grounded.addAddress (fun _ => .inr spared.tables.size_le) ?_)
      exact fun same => absurd same (show ExternKind.table ≠ .memory by decide)
  | memory _ =>
      refine placed _ _ rfl (grounded.addAddress ?_ fun _ => .inr spared.memories.size_le)
      exact fun same => absurd same (show ExternKind.memory ≠ .table by decide)
  | global _ _ _ _ =>
      exact placed _ _ rfl (grounded.addOther (show ExternKind.global ≠ .table by decide)
        (show ExternKind.global ≠ .memory by decide))
  | elem _ _ _ =>
      exact placed _ _ rfl { grounded with
        elems := Array.forall_mem_push.mpr ⟨spared.elems.size_le, grounded.elems⟩ }
  | data _ =>
      exact placed _ _ rfl { grounded with
        datas := Array.forall_mem_push.mpr ⟨spared.datas.size_le, grounded.datas⟩ }
  | «export» _ _ _ => exact placed _ _ rfl { grounded with }

/-- At a later stage more segments are in front. -/
theorem Spared.later {stage' : Stage}
    (spared : s.Spared (m.FillsTable externs inst stage) (m.FillsMemory externs inst stage) s₁)
    (elements : ∀ i, stage.BehindElement i → stage'.BehindElement i)
    (datas : ∀ i, stage.BehindData i → stage'.BehindData i) :
    s.Spared (m.FillsTable externs inst stage') (m.FillsMemory externs inst stage') s₁ := by
  refine spared.mono ?_ ?_
  · rintro addr ⟨imported, i, e, listed, active, behind, there⟩
    exact ⟨imported, i, e, listed, active, elements i behind, there⟩
  · rintro addr ⟨imported, i, d, listed, active, behind, there⟩
    exact ⟨imported, i, d, listed, active, datas i behind, there⟩

namespace Undamaged

theorem later {stage' : Stage} (undamaged : Undamaged m externs s stage s₁)
    (elements : ∀ i, stage.BehindElement i → stage'.BehindElement i)
    (datas : ∀ i, stage.BehindData i → stage'.BehindData i) :
    Undamaged m externs s stage' s₁ := by
  obtain ⟨inst, found, grounded, spared⟩ := undamaged
  exact ⟨inst, found, grounded, spared.later elements datas⟩

/-- Among the definitions no segment is in front. -/
theorem add (undamaged : Undamaged m externs s .definitions s₁)
    (addition : s₁.Addition m s.instances.size s₂) : Undamaged m externs s .definitions s₂ := by
  obtain ⟨inst, found, grounded, spared⟩ := undamaged
  obtain ⟨inst', found', grounded'⟩ := grounded_add grounded spared found addition
  refine ⟨inst', found', grounded', (spared.add addition).mono ?_ ?_⟩
  · rintro addr ⟨-, i, e, -, -, behind, -⟩
    exact behind.elim
  · rintro addr ⟨-, i, d, -, -, behind, -⟩
    exact behind.elim

theorem element {i : Nat} {e : Element} {segment : Addr}
    (undamaged : Undamaged m externs s (.element i) s₁) (listed : m.elements[i]? = some e)
    (found : s₁.instances[s.instances.size]? = some inst) (held : inst.elems[i]? = some segment)
    (applies : s₁.AppliesElement inst e segment s₂) :
    Undamaged m externs s (.element (i + 1)) s₂ := by
  obtain ⟨inst', found', grounded, spared⟩ := undamaged
  cases found.symm.trans found'
  refine ⟨inst, applies.instances ▸ found, grounded, ?_⟩
  have spared : s.Spared (m.FillsTable externs inst (.element (i + 1)))
      (m.FillsMemory externs inst (.element (i + 1))) s₁ :=
    spared.later (fun _ => Nat.lt_succ_of_lt) fun _ => id
  have new := grounded.elems segment (Array.mem_of_getElem? held)
  cases applies with
  | @active table offset active there _ _ =>
      refine (spared.writeTable ?_ _ _).dropElem new
      refine (grounded.tables table (Array.mem_of_getElem? there)).imp_left fun imported => ?_
      exact ⟨imported, i, e, listed, active, Nat.lt_succ_self i, there⟩
  | declarative _ => exact spared.dropElem new
  | passive _ _ => exact spared

theorem data {i : Nat} {d : DataSegment} {segment : Addr}
    (undamaged : Undamaged m externs s (.data i) s₁) (listed : m.data[i]? = some d)
    (found : s₁.instances[s.instances.size]? = some inst) (held : inst.datas[i]? = some segment)
    (applies : s₁.AppliesData inst d segment s₂) : Undamaged m externs s (.data (i + 1)) s₂ := by
  obtain ⟨inst', found', grounded, spared⟩ := undamaged
  cases found.symm.trans found'
  refine ⟨inst, applies.instances ▸ found, grounded, ?_⟩
  have spared : s.Spared (m.FillsTable externs inst (.data (i + 1)))
      (m.FillsMemory externs inst (.data (i + 1))) s₁ :=
    spared.later (fun _ => id) fun _ => Nat.lt_succ_of_lt
  have new := grounded.datas segment (Array.mem_of_getElem? held)
  cases applies with
  | @active memory offset active there _ _ =>
      refine (spared.writeMemory ?_ _ _).dropData new
      refine (grounded.memories memory (Array.mem_of_getElem? there)).imp_left fun imported => ?_
      exact ⟨imported, i, d, listed, active, Nat.lt_succ_self i, there⟩
  | passive _ => exact spared

end Undamaged

/-- On the whole way to an instance, what was there before is spared. -/
theorem Made.undamaged {name : String} (made : s.Made m (.fresh m name externs) stage s₁) :
    Undamaged m externs s stage s₁ := by
  induction made with
  | fresh =>
      exact ⟨_, Array.getElem?_push_size, ModuleInstance.grounded_fresh m name externs s,
        .addInstance _⟩
  | add _ addition ih => exact ih.add addition
  | defined _ _ _ _ ih => exact ih.later (fun _ => False.elim) fun _ => False.elim
  | element _ listed found held applies ih => exact ih.element listed found held applies
  | elements _ ih => exact ih.later (fun _ _ => trivial) fun _ => False.elim
  | data _ listed found held applies ih => exact ih.data listed found held applies
  | datas _ ih => exact ih.later (fun _ => id) fun _ _ => trivial

end Store

namespace Link

/-- A failed instantiation has come to a stage. Names are as they were, and so is the machine
but for its store; and the store is spared but for what segments before the stage have filled.
Either something was in the way of the stage, or the start function failed, which ran on that
store and has restored the machine's stack. -/
structure Contained (fuel : Nat) (m : Module) (start : Linker) (externs : List Extern)
    (e : LinkError) (l' : Linker) : Prop where
  registry : l'.registry = start.registry
  machine : start.machine.Restored l'.machine
  store : ∃ stage inst s,
    s.instances[start.machine.store.instances.size]? = some inst ∧
    start.machine.store.Spared (m.FillsTable externs inst stage)
      (m.FillsMemory externs inst stage) s ∧
    (l' = start.withStore s ∧ s.Obstacle m inst stage e ∨
      stage = .start ∧ ∃ index addr stop fault, m.start = some index ∧
        inst.funcs[index.toNat]? = some addr ∧
        Run.invoke fuel addr [] { start.machine with store := s } = .error stop l'.machine ∧
        stop.fault? = some fault ∧ e = .startFailed index fault)

/-- A module of the embedder fails only at the check of its definitions, which stands in
front of everything else. -/
theorem hostModule_refused (mod : String) (defs : List HostDef) (start : Linker) :
    Ends (hostModule mod defs) start (fun _ _ => True) fun _ l' => l' = start := by
  unfold hostModule
  cases defs.forM (HostDef.check mod) with
  | error e => exact Ends.stop rfl rfl
  | ok u =>
      apply Ends.step rfl
      refine Ends.bind (Ends.foldlM (fun _ => True) trivial fun d _ inst l _ => ?_) fun _ _ _ => ?_
      · obtain ⟨name, item⟩ := d
        cases item with
        | _ => exact Ends.of_ok rfl trivial
      · exact Ends.of_ok rfl trivial

theorem Contained.of_stopped {fuel : Nat} {m : Module} {name : String} {start l' : Linker}
    {externs : List Extern} {e : LinkError} (resolved : start.resolve m = .ok externs)
    (stopped : Stopped fuel m name start (.failed e) l') :
    Contained fuel m start externs e l' := by
  generalize is : LinkStop.failed e = stop at stopped
  cases stopped with
  | unresolved failed => cases resolved.symm.trans failed
  | hindered resolved' hindered =>
      cases is
      cases resolved.symm.trans resolved'
      obtain ⟨stage, inst, reached, found, obstacle⟩ := hindered
      obtain ⟨inst', found', -, spared⟩ := reached.made.undamaged
      cases found.symm.trans found'
      refine ⟨?_, ?_, stage, inst, l'.machine.store, found, spared, .inl ⟨reached.same, obstacle⟩⟩
      · rw [reached.same]
        rfl
      · rw [reached.same]
        exact ⟨rfl, rfl, rfl⟩
  | @crashed _ inst _ l _ resolved' reached found crashed =>
      cases resolved.symm.trans resolved'
      obtain ⟨inst', found', -, spared⟩ := reached.made.undamaged
      cases found.symm.trans found'
      cases crashed with
      | @intro index addr stop machine started there ran =>
          unfold startStop at is
          split at is
          · next fault known =>
              cases is
              have before : l.machine = { start.machine with store := l.machine.store } := by
                rw [reached.same]
                rfl
              have restored := (Run.invoke_restored fuel addr [] l.machine).bad ran (by
                rintro rfl
                cases known)
              rw [before] at ran restored
              refine ⟨?_, ⟨restored.stack, restored.frame, restored.depth⟩, .start, inst, _, found,
                spared, .inr ⟨rfl, index, addr, stop, fault, started, there, ran, known, rfl⟩⟩
              show l.registry = _
              rw [reached.same]
              rfl
          · cases is

/-- A failure to link leaves everything unrelated as it was, whatever the module is. Neither
an import that does not resolve nor a definition of the embedder that is refused leaves a
trace. -/
theorem failures_contained :
    (∀ (fuel : Nat) (m : Module) (name : String) (start : Linker) (e : LinkError),
      start.resolve m = .error e → instantiate fuel m name start = .error (.failed e) start) ∧
    (∀ (fuel : Nat) (m : Module) (name : String) (start l' : Linker) (externs : List Extern)
      (e : LinkError), start.resolve m = .ok externs →
      instantiate fuel m name start = .error (.failed e) l' →
      Contained fuel m start externs e l') ∧
    ∀ (mod : String) (defs : List HostDef) (start l' : Linker) (stop : LinkStop),
      hostModule mod defs start = .error stop l' → l' = start := by
  refine ⟨?_, ?_, ?_⟩
  · intro fuel m name start e unresolved
    unfold instantiate
    simp only [Bind.bind, EStateM.bind, get_eq, unresolved]
    rfl
  · intro fuel m name start l' externs e resolved failed
    exact .of_stopped resolved ((instantiate_course fuel m name start).bad failed)
  · intro mod defs start l' stop failed
    exact (hostModule_refused mod defs start).bad failed

/-- A linker in which the embedder has defined a table of one reference. -/
def sharedLinker : Linker :=
  after (hostModule "env" [⟨"refs", .table ⟨.funcref, ⟨1, none⟩⟩⟩]) (Embedding.new {}).linker

/-- A module that fills the table with its function, and goes on behind the table's end. -/
def overfillingModule : Module :=
  { types := [⟨[], []⟩]
    imports := [⟨"env", "refs", ⟨.table, 0, some ⟨.funcref, ⟨1, none⟩⟩, none, none⟩⟩]
    funcs := [0]
    code := [⟨[], []⟩]
    elements := [filling 0, filling 1] }
where
  /-- A segment that starts at an offset. -/
  filling (offset : UInt32) : Element :=
    ⟨.active, 0, 0, .funcref, [.plain Opcode.i32Const (some (.i32 offset))], some [0], none⟩

set_option maxRecDepth 20000 in
/-- The second segment fails: the table holds what the first one has put there, and the name
is not given. -/
theorem failures_contained_overfilling :
    Contained 1 overfillingModule sharedLinker [⟨.table, 0⟩] (.elementBounds 1 0 1)
        (after (instantiate 1 overfillingModule "late") sharedLinker) ∧
      ((after (instantiate 1 overfillingModule "late") sharedLinker).machine.store.tables[0]?).map
        (·.elems) = some #[.func 0] :=
  ⟨failures_contained.2.1 1 overfillingModule "late" sharedLinker _ _ _ rfl rfl, rfl⟩

end Link

end WasmMachine
