/-
# Where an instruction finds what it works on

An instruction names memories, tables and segments by their index in the instance that its
code belongs to, and takes its operands from those at hand.  When these are there, the steps
that look for them succeed and change nothing.  What an instruction then writes is one item
of the store, and all others stay what they are.
-/

import WasmMachine.Machine.Scope
import WasmMachine.Proofs.Safety.Outcome

namespace WasmMachine

/-! ## One item of a store -/

/-- An array is another one in which the item at a place has been exchanged. -/
structure Exchanged {α : Type} (items items' : Array α) (place : Nat) (item : α) : Prop where
  here : items'[place]? = some item
  others : ∀ other, other ≠ place → items'[other]? = items[other]?

theorem exchanged_modify {α : Type} {items : Array α} {place : Nat} {item : α}
    (found : items[place]? = some item) (f : α → α) :
    Exchanged items (items.modify place f) place (f item) where
  here := by rw [Array.getElem?_modify, if_pos rfl, found, Option.map_some]
  others other apart := by rw [Array.getElem?_modify, if_neg (Ne.symm apart)]

/-- To exchange an item for itself changes nothing. -/
theorem Exchanged.eq_of_same {α : Type} {items items' : Array α} {place : Nat} {item : α}
    (exchanged : Exchanged items items' place item) (found : items[place]? = some item) :
    items' = items := by
  refine Array.ext_getElem? fun j => ?_
  by_cases here : j = place
  · rw [here, exchanged.here, found]
  · exact exchanged.others j here

namespace Store

/-- A store is another one in which a memory has other bytes. -/
structure WithMemory (s s' : Store) (addr : Addr) (m : MemInst) (data : Array UInt8) : Prop where
  memories : Exchanged s.memories s'.memories addr (m.withData data)
  elsewhere : s' = { s with memories := s'.memories }

/-- A store is another one in which a table has other entries. -/
structure WithTable (s s' : Store) (addr : Addr) (t : TableInst) (elems : Array Ref) : Prop where
  tables : Exchanged s.tables s'.tables addr { t with elems := elems }
  elsewhere : s' = { s with tables := s'.tables }

variable {s : Store} {addr : Addr}

theorem withMemory_writeMemory {m : MemInst} (found : s.memories[addr]? = some m) (start : Nat)
    (bytes : List UInt8) :
    s.WithMemory (s.writeMemory addr start bytes) addr m (Cells.overwrite m.data start bytes) :=
  ⟨m.write_eq start bytes ▸ exchanged_modify found (·.write start bytes), rfl⟩

theorem withTable_writeTable {t : TableInst} (found : s.tables[addr]? = some t) (start : Nat)
    (refs : List Ref) :
    s.WithTable (s.writeTable addr start refs) addr t (Cells.overwrite t.elems start refs) :=
  ⟨exchanged_modify found fun t => { t with elems := Cells.overwrite t.elems start refs }, rfl⟩

theorem WithMemory.eq_of_same {s' : Store} {m : MemInst} (same : s.WithMemory s' addr m m.data)
    (found : s.memories[addr]? = some m) : s' = s := by
  rw [same.elsewhere, same.memories.eq_of_same found]

theorem WithTable.eq_of_same {s' : Store} {t : TableInst} (same : s.WithTable s' addr t t.elems)
    (found : s.tables[addr]? = some t) : s' = s := by
  rw [same.elsewhere, same.tables.eq_of_same found]

end Store

/-! ## Finding it -/

/-- The running code belongs to an instance. -/
def Scope.RunsIn (s : Scope) (inst : ModuleInstance) : Prop :=
  ∃ id, s.frame.bind (·.home) = some id ∧ s.store.instances[id]? = some inst

/-- What follows a step whose result is known. -/
theorem bind_eq_of_ok {ε σ α β : Type} {action : EStateM ε σ α} {next : α → EStateM ε σ β}
    {s s' : σ} {a : α} (run : action s = .ok a s') : (action >>= next) s = next a s' := by
  simp only [bind, EStateM.bind, run]

/-- A check that stops when it fails stands in front of the rest. -/
theorem Ends.guard {ε σ β : Type} {c : Prop} [Decidable c] {s : σ} {e : ε}
    {rest : PUnit → EStateM ε σ β} {Good : β → σ → Prop} {Bad : ε → σ → Prop}
    (fails : c → Bad e s) (passes : ¬ c → Ends (rest ()) s Good Bad) :
    Ends (if c then MonadExcept.throw e >>= rest else rest ()) s Good Bad := by
  by_cases bad : c
  · rw [if_pos bad]
    exact Ends.stop rfl (fails bad)
  · rw [if_neg bad]
    exact passes bad

namespace Step

/-- How a step ends that moves one run of cells, when the operands that it does not take are
`rest`: it traps exactly when the run is out of bounds, with the store as it was; otherwise
only the store is another one, as told. -/
def Moves (step : Step Unit) (s : Scope) (rest : List Value) (t : Trap) (Outside : Prop)
    (Moved : Store → Prop) : Prop :=
  Ends step s
    (fun _ s' => ¬ Outside ∧ Moved s'.store ∧
      s' = { s with operands := rest, store := s'.store })
    fun t' s' => Outside ∧ t' = t ∧ s' = { s with operands := rest }

theorem Moves.mono {s : Scope} {rest : List Value} {step : Step Unit} {t : Trap} {Outside : Prop}
    {Moved Moved' : Store → Prop} (moves : Moves step s rest t Outside Moved)
    (weaker : ∀ store, ¬ Outside → Moved store → Moved' store) :
    Moves step s rest t Outside Moved' :=
  Ends.mono moves (fun _ _ done => ⟨done.1, weaker _ done.1 done.2.1, done.2.2⟩)
    fun _ _ stopped => stopped

variable {s : Scope} {id : InstanceId} {inst : ModuleInstance}

theorem home_eq (home : s.frame.bind (·.home) = some id)
    (held : s.store.instances[id]? = some inst) : Step.home s = .ok inst s := by
  unfold Step.home
  simp only [Bind.bind, EStateM.bind, get_eq]
  rw [home]
  simp only [held]
  rfl

theorem address_eq (home : s.frame.bind (·.home) = some id)
    (held : s.store.instances[id]? = some inst) {space : ModuleInstance → Array Addr}
    (missing : UInt32 → Trap) {index : UInt32} {addr : Addr}
    (there : (space inst)[index.toNat]? = some addr) :
    address space missing index s = .ok addr s := by
  unfold address
  simp only [Bind.bind, EStateM.bind, home_eq home held, there]
  rfl

theorem fetch_eq {α : Type} {space : Store → Array α} (missing : Trap) {addr : Addr} {item : α}
    (found : (space s.store)[addr]? = some item) : fetch space missing addr s = .ok item s := by
  unfold fetch
  simp only [Bind.bind, EStateM.bind, get_eq, found]
  rfl

end Step

end WasmMachine
