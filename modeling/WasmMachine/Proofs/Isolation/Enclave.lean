/-
# Enclaves

An instance that imports nothing calls its own functions.  Its code can get at nothing else
as long as it holds no reference to a function of another instance.  So it runs alike in two
stores that agree on what it owns, and it leaves everything else in either of them alone.

`Enclave` holds such an instance and two surroundings for it.  Here the steps that a plain
instruction is made of are compared in the two; nothing is asked of the code.
-/

import WasmMachine.Machine.Basic
import WasmMachine.Proofs.Isolation.Cells
import WasmMachine.Proofs.Isolation.Lockstep

namespace WasmMachine

/-- An instance whose functions are code of its own, in a machine before it runs, and another
store that it can run in as well. -/
structure Enclave where
  home : InstanceId
  inst : ModuleInstance
  before : Machine
  other : Store
  funcs : other.funcs = before.store.funcs
  instances : other.instances = before.store.instances
  here : before.store.instances[home]? = some inst
  own : ∀ addr ∈ inst.funcs, before.store.CodeOf home addr

namespace Enclave

/-- Two stores that the instance has come to from its surroundings. They agree on what it
owns, and differ from the stores before in nothing else. -/
structure Stores (v : Enclave) (s t : Store) : Prop where
  inside : s.SameInside v.inst.Owns t
  left : v.before.store.SameOutside v.inst.Owns s
  right : v.other.SameOutside v.inst.Owns t
  encloses : s.Encloses v.inst

/-- A frame of the instance's code. -/
structure Framed (v : Enclave) (f : Frame) : Prop where
  home : f.home = some v.home
  locals : ∀ x ∈ f.locals, x.Within v.inst

/-- What the instance's code sees, and the other store that it might see instead. -/
structure InScope (v : Enclave) (s : Scope) (t : Store) : Prop where
  stores : v.Stores s.store t
  operands : ∀ x ∈ s.operands, x.Within v.inst
  frame : ∀ f, s.frame = some f → v.Framed f

/-- Two scopes that differ in their stores alone, and there in nothing that the instance
owns. -/
def Scopes (v : Enclave) (s s' : Scope) : Prop := ∃ t, v.InScope s t ∧ s' = { s with store := t }

variable {v : Enclave}

/-! ## What the code finds in a store -/

namespace Stores

variable {s t : Store} {addr : Addr}

theorem funcs (stores : v.Stores s t) : t.funcs = s.funcs :=
  stores.right.funcs.trans (v.funcs.trans stores.left.funcs.symm)

theorem instances (stores : v.Stores s t) : t.instances = s.instances :=
  stores.right.instances.trans (v.instances.trans stores.left.instances.symm)

theorem home (stores : v.Stores s t) : s.instances[v.home]? = some v.inst :=
  stores.left.instances ▸ v.here

/-- The functions of the instance are its own code, at any time. -/
theorem code (stores : v.Stores s t) (own : addr ∈ v.inst.funcs) : s.CodeOf v.home addr := by
  unfold Store.CodeOf
  rw [stores.left.funcs]
  exact v.own addr own

/-- What is found at an address of the instance is the same in both stores, and leads no
further. -/
theorem content {α : Type} (stores : v.Stores s t) {cell : Cell} (own : v.inst.Owns cell)
    {space : Store → Array α} {sort : α → Content}
    (sorted : ∀ s, s.content? cell = ((space s)[addr]?).map sort)
    (injective : ∀ a b, sort a = sort b → a = b) :
    (space t)[addr]? = (space s)[addr]? ∧
      ∀ a, (space s)[addr]? = some a → (sort a).Within v.inst := by
  have same := stores.inside cell own
  rw [sorted, sorted] at same
  refine ⟨Option.map_injective injective same, fun a found => ?_⟩
  obtain ⟨c, held, within⟩ := stores.encloses cell own
  rw [sorted, found] at held
  cases held
  exact within

/-- Both stores are changed alike in a cell of the instance. -/
theorem rewrite (stores : v.Stores s t) {f : Store → Store} {cell : Cell} {g : Content → Content}
    (rewrites : Store.Rewrites f cell g) (own : v.inst.Owns cell)
    (kept : ∀ c, c.Within v.inst → (g c).Within v.inst) : v.Stores (f s) (f t) where
  inside := stores.inside.rewrite rewrites
  left := stores.left.rewrite rewrites own
  right := stores.right.rewrite rewrites own
  encloses := stores.encloses.rewrite rewrites kept

end Stores

/-! ## Steps -/

/-- A step that the code of the instance takes in lockstep in its two surroundings. -/
abbrev Steps {α : Type} (v : Enclave) (action : Step α) (Good : α → Prop) : Prop :=
  Lockstep v.Scopes action Good

variable {α β : Type} {x : Value} {addr : Addr}

theorem get_steps {next : Scope → Step β} {After : β → Prop}
    (rest : ∀ s t, v.InScope s t →
      Matches v.Scopes After (next s s) (next { s with store := t } { s with store := t })) :
    v.Steps (get >>= next) After := by
  refine Lockstep.get ?_
  rintro s _ ⟨t, inScope, rfl⟩
  exact rest s t inScope

theorem push_steps (within : x.Within v.inst) : v.Steps (Step.push x) fun _ => True := by
  refine Lockstep.modify ?_
  rintro s _ ⟨t, inScope, rfl⟩
  refine ⟨t, { inScope with operands := fun y mem => ?_ }, rfl⟩
  rcases List.mem_cons.mp mem with rfl | mem
  · exact within
  · exact inScope.operands y mem

/-- An operation that puts nothing on the operands that leads out of the instance. -/
theorem onOperands_steps {operation : List Value → Except Trap (List Value)}
    (kept : ∀ operands operands', operation operands = .ok operands' →
      (∀ x ∈ operands, x.Within v.inst) → ∀ x ∈ operands', x.Within v.inst) :
    v.Steps (Step.onOperands operation) fun _ => True := by
  rintro ⟨operands, frame, s⟩ _ ⟨t, inScope, rfl⟩
  unfold Step.onOperands
  simp only
  cases result : operation operands with
  | ok operands' =>
      have within := kept operands operands' result inScope.operands
      exact .ok trivial ⟨t, ⟨inScope.stores, within, inScope.frame⟩, rfl⟩
  | error trap => exact .error ⟨t, inScope, rfl⟩

/-! ## Operands -/

theorem popValue_steps : v.Steps Step.popValue (·.Within v.inst) := by
  rintro ⟨operands, frame, s⟩ _ ⟨t, inScope, rfl⟩
  cases operands with
  | nil => exact .error ⟨t, inScope, rfl⟩
  | cons x rest =>
      have rest_within : ∀ y ∈ rest, y.Within v.inst :=
        fun y mem => inScope.operands y (List.mem_cons_of_mem x mem)
      exact .ok (inScope.operands x List.mem_cons_self)
        ⟨t, ⟨inScope.stores, rest_within, inScope.frame⟩, rfl⟩

theorem popI32_steps : v.Steps Step.popI32 fun _ => True := by
  rintro ⟨operands, frame, s⟩ _ ⟨t, inScope, rfl⟩
  unfold Step.popI32
  simp only
  split
  · next same =>
      cases same
      refine .ok trivial ⟨t, ⟨inScope.stores, fun y mem => ?_, inScope.frame⟩, rfl⟩
      exact inScope.operands y (by simp [mem])
  · next none =>
      split
      · next same =>
          cases same
          exact (none _ _ _ _ rfl).elim
      · exact .error ⟨t, inScope, rfl⟩

theorem popRef_steps : v.Steps Step.popRef (·.Within v.inst) := by
  rintro ⟨operands, frame, s⟩ _ ⟨t, inScope, rfl⟩
  unfold Step.popRef
  simp only
  split
  · next r rest _ _ same =>
      cases same
      refine .ok (inScope.operands (.ref r) List.mem_cons_self)
        ⟨t, ⟨inScope.stores, fun y mem => ?_, inScope.frame⟩, rfl⟩
      exact inScope.operands y (by simp [mem])
  · next none =>
      split
      · next same =>
          cases same
          exact (none _ _ _ _ rfl).elim
      · exact .error ⟨t, inScope, rfl⟩

theorem popThree_steps : v.Steps Step.popThree fun _ => True := by
  rintro ⟨operands, frame, s⟩ _ ⟨t, inScope, rfl⟩
  unfold Step.popThree
  simp only
  split
  · next same =>
      cases same
      refine .ok trivial ⟨t, ⟨inScope.stores, fun y mem => ?_, inScope.frame⟩, rfl⟩
      exact inScope.operands y (by simp [mem])
  · next none =>
      split
      · next same =>
          cases same
          exact (none _ _ _ _ _ _ rfl).elim
      · exact .error ⟨t, inScope, rfl⟩

/-! ## Places of the instance -/

/-- The running code is that of the instance. -/
theorem home_steps : v.Steps Step.home (· = v.inst) := by
  unfold Step.home
  refine get_steps fun s t inScope => ?_
  simp only
  cases running : s.frame.bind (·.home) with
  | none => exact .error ⟨t, inScope, rfl⟩
  | some id =>
      obtain ⟨f, framed, home⟩ := Option.bind_eq_some_iff.mp running
      cases home.symm.trans (inScope.frame f framed).home
      simp only [inScope.stores.instances, inScope.stores.home]
      exact .ok rfl ⟨t, inScope, rfl⟩

theorem address_steps (space : ModuleInstance → Array Addr) (missing : UInt32 → Trap)
    (index : UInt32) : v.Steps (Step.address space missing index) (· ∈ space v.inst) := by
  unfold Step.address
  refine home_steps.bind ?_
  rintro _ rfl
  split
  · next found => exact .pure (Array.mem_of_getElem? found)
  · exact .throw (missing index)

/-- Something of the store that both runs find alike. -/
theorem fetch_steps {space : Store → Array α} {Good : α → Prop} (missing : Trap)
    (reads : ∀ s t, v.Stores s t → (space t)[addr]? = (space s)[addr]? ∧
      ∀ a, (space s)[addr]? = some a → Good a) :
    v.Steps (Step.fetch space missing addr) Good := by
  unfold Step.fetch
  refine get_steps fun s t inScope => ?_
  obtain ⟨same, good⟩ := reads s.store t inScope.stores
  simp only [same]
  cases found : (space s.store)[addr]? with
  | none => exact .error ⟨t, inScope, rfl⟩
  | some a => exact .ok (good a found) ⟨t, inScope, rfl⟩

theorem fetchTable_steps (missing : Trap) (own : addr ∈ v.inst.tables) :
    v.Steps (Step.fetch (·.tables) missing addr) fun t => ∀ r ∈ t.elems, r.Within v.inst :=
  fetch_steps missing fun _ _ stores =>
    stores.content (show v.inst.Owns (.table addr) from own) (fun _ => rfl) fun _ _ same => by
      cases same
      rfl

theorem fetchMemory_steps (missing : Trap) (own : addr ∈ v.inst.memories) :
    v.Steps (Step.fetch (·.memories) missing addr) fun _ => True :=
  fetch_steps missing fun _ _ stores =>
    stores.content (show v.inst.Owns (.memory addr) from own) (fun _ => rfl) fun _ _ same => by
      cases same
      rfl

theorem fetchGlobal_steps (missing : Trap) (own : addr ∈ v.inst.globals) :
    v.Steps (Step.fetch (·.globals) missing addr) fun g => g.value.Within v.inst :=
  fetch_steps missing fun _ _ stores =>
    stores.content (show v.inst.Owns (.global addr) from own) (fun _ => rfl) fun _ _ same => by
      cases same
      rfl

theorem fetchElem_steps (missing : Trap) (own : addr ∈ v.inst.elems) :
    v.Steps (Step.fetch (·.elems) missing addr) fun e => ∀ r ∈ e.refs, r.Within v.inst :=
  fetch_steps missing fun _ _ stores =>
    stores.content (show v.inst.Owns (.elem addr) from own) (fun _ => rfl) fun _ _ same => by
      cases same
      rfl

theorem fetchData_steps (missing : Trap) (own : addr ∈ v.inst.datas) :
    v.Steps (Step.fetch (·.datas) missing addr) fun _ => True :=
  fetch_steps missing fun _ _ stores =>
    stores.content (show v.inst.Owns (.data addr) from own) (fun _ => rfl) fun _ _ same => by
      cases same
      rfl

/-! ## Changes of the store -/

/-- Only what the instance owns is changed, and no reference is written that leads out of
it. -/
theorem modifyStore_steps {f : Store → Store} {cell : Cell} {g : Content → Content}
    (rewrites : Store.Rewrites f cell g) (own : v.inst.Owns cell)
    (kept : ∀ c, c.Within v.inst → (g c).Within v.inst) :
    v.Steps (Step.modifyStore f) fun _ => True := by
  refine Lockstep.modify ?_
  rintro s _ ⟨t, inScope, rfl⟩
  exact ⟨f t, { inScope with stores := inScope.stores.rewrite rewrites own kept }, rfl⟩

/-- A table is changed, and gets no reference that leads out of the instance. -/
theorem modifyTable_steps (own : addr ∈ v.inst.tables) {f : TableInst → TableInst}
    (kept : ∀ t, (∀ r ∈ t.elems, r.Within v.inst) → ∀ r ∈ (f t).elems, r.Within v.inst) :
    v.Steps (Step.modifyStore fun s => { s with tables := s.tables.modify addr f })
      fun _ => True :=
  modifyStore_steps (Store.rewrites_table addr f) own fun _ within => within.mapTable kept

theorem modifyMemory_steps (own : addr ∈ v.inst.memories) (f : MemInst → MemInst) :
    v.Steps (Step.modifyStore fun s => { s with memories := s.memories.modify addr f })
      fun _ => True :=
  modifyStore_steps (Store.rewrites_memory addr f) own fun _ within => within.mapMemory f

end Enclave

end WasmMachine
