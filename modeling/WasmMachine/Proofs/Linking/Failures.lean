/-
# How instantiation fails

Once the imports of a decoded and validated module are resolved, its definitions are added
without a failure, its exports find what they name and every offset has a value.  What is
left is out of the module's hands: an active segment may not fit, and the start function
may trap or go on for ever.
-/

import WasmMachine.Proofs.Evolution.Run
import WasmMachine.Proofs.Evolution.Sealed
import WasmMachine.Proofs.Linking.Placed

namespace WasmMachine

open Typing

/-- Failures that are caused by a trap: a segment that does not fit, or a start function
that trapped. -/
inductive LinkError.Trapped : LinkError → Prop
  | elementBounds (segment : Nat) (table offset : UInt32) :
      Trapped (.elementBounds segment table offset)
  | dataBounds (segment : Nat) (memory offset : UInt32) :
      Trapped (.dataBounds segment memory offset)
  | startFailed (index : UInt32) (t : Trap) : Trapped (.startFailed index t.toFault)

/-- The report on such a failure names its stage and has the trap as its cause. -/
theorem LinkError.Trapped.toFault {e : LinkError} (trapped : e.Trapped) :
    ∃ stage ∈ ["elem", "data", "start"], ∃ detail, ∃ t : Trap,
      e.toFault = LinkError.instantiation stage detail (some t.toFault) := by
  cases trapped with
  | elementBounds segment table offset => exact ⟨"elem", by simp, _, .tableBounds, rfl⟩
  | dataBounds segment memory offset => exact ⟨"data", by simp, _, .memoryBounds, rfl⟩
  | startFailed index t => exact ⟨"start", by simp, _, t, rfl⟩

namespace Link

variable {σ : Shape} {id : InstanceId} {inst : ModuleInstance} {l : Linker} {m : Module}
  {expr : List Instruction}

/-- The store has a shape, and its immutable globals hold what they should. -/
structure Opened (σ : Shape) (l : Linker) : Prop where
  shape : l.machine.store.shape = σ
  sealed : l.machine.store.Sealed

theorem Opened.evolve {l' : Linker} (opened : Opened σ l)
    (evolves : l.machine.store.Evolves l'.machine.store) : Opened σ l' :=
  ⟨evolves.shape.trans opened.shape, evolves.sealed opened.sealed⟩

/-- How a stage behind the definitions may stop. Only a start function can use up the
fuel. -/
def Traps (σ : Shape) (m : Module) : LinkStop → Linker → Prop
  | .failed e, l => e.Trapped ∧ Opened σ l
  | .outOfFuel, l => m.start.isSome ∧ Opened σ l

/-! ## Exports -/

theorem bindExports_opens (placed : m.Placed) (served : Served σ id m) (opened : Opened σ l)
    {Bad : LinkStop → Linker → Prop} :
    Ends (bindExports id m) l (fun _ l' => Opened σ l') Bad := by
  refine Ends.forM (fun _ (l : Linker) => Opened σ l) opened ?_
  intro done e rest same l opened
  obtain ⟨inst, ran, serves⟩ := inst_served opened.shape served
  have inside : e.index.toNat < (inst.addresses e.kind).size := by
    rw [serves.size_addresses]
    exact placed.exports e (by simp [same])
  apply Ends.step ran
  simp only [Array.getElem?_eq_getElem inside]
  refine Ends.of_ok rfl ⟨?_, opened.sealed⟩
  refine (l.machine.store.shape_modifyInstance id ?_).trans opened.shape
  exact fun _ => rfl

/-! ## Active segments -/

/-- An offset that the checker accepted has a value. -/
theorem exists_offset (opened : Opened σ l) (serves : σ.Serves inst (.ofModule m))
    (typed : m.OffsetTyped expr) : ∃ bits, l.machine.store.offset inst expr = .ok bits := by
  have offers := serves.offers (Context.ofModule m).globals.length
  rw [← opened.shape] at offers
  obtain ⟨v, ran, gives⟩ := Store.constant_gives offers typed.wellFormed typed.typed
  obtain ⟨n, has⟩ := gives.has_of_sealed opened.sealed
  obtain ⟨bits, rfl⟩ := has.eq_i32
  refine ⟨bits, ?_⟩
  unfold Store.offset
  rw [ran]
  rfl

/-- The table of an active segment has an address. -/
theorem exists_tableAddr {e : Element} (checked : m.Checked)
    (serves : σ.Serves inst (.ofModule m)) (mem : e ∈ m.elements) (active : e.mode = .active) :
    ∃ addr, inst.tables[e.table.toNat]? = some addr := by
  obtain ⟨table, target, -⟩ := checked.elementTables e mem active
  have target : ((Context.ofModule m).tables.map (·.elem))[e.table.toNat]? =
      some table.elem := by
    rw [List.getElem?_map, target]
    rfl
  obtain ⟨addr, there, -⟩ := serves.tables.lookup target
  exact ⟨addr, there⟩

/-- The memory of an active segment has an address. -/
theorem exists_memoryAddr {d : DataSegment} (placed : m.Placed)
    (serves : σ.Serves inst (.ofModule m)) (mem : d ∈ m.data) (active : d.mode = .active) :
    ∃ addr, inst.memories[d.memory.toNat]? = some addr := by
  have target : ((Context.ofModule m).memories.map fun _ => ())[d.memory.toNat]? = some () := by
    rw [List.getElem?_map, List.getElem?_eq_getElem (placed.memories d mem active)]
    rfl
  obtain ⟨addr, there, -⟩ := serves.memories.lookup target
  exact ⟨addr, there⟩

theorem applyElement_traps {i : Nat} {e : Element} (checked : m.Checked) (placed : m.Placed)
    (served : Served σ id m) (mem : e ∈ m.elements) (opened : Opened σ l) :
    Ends (applyElement id i e) l (fun _ l' => Opened σ l') (Traps σ m) := by
  obtain ⟨inst, ran, serves⟩ := inst_served opened.shape served
  unfold applyElement
  apply Ends.step ran
  simp only
  split
  · next active =>
      obtain ⟨addr, there⟩ := exists_tableAddr checked serves mem active
      obtain ⟨bits, offset⟩ := exists_offset opened serves (placed.elements e mem active)
      simp only [there]
      apply Ends.step rfl
      rw [offset]
      apply Ends.step rfl
      apply Ends.step rfl
      apply Ends.step rfl
      split
      · exact Ends.stop rfl ⟨.elementBounds _ _ _, opened⟩
      · refine Ends.of_ok rfl (opened.evolve ?_)
        exact .trans (.of_change (.writeTable addr _ _)) (.of_change (.dropElem _))
  · exact Ends.of_ok rfl (opened.evolve (.of_change (.dropElem _)))
  · exact Ends.pure opened

theorem applyData_traps {i : Nat} {d : DataSegment} (placed : m.Placed)
    (served : Served σ id m) (mem : d ∈ m.data) (opened : Opened σ l) :
    Ends (applyData id i d) l (fun _ l' => Opened σ l') (Traps σ m) := by
  obtain ⟨inst, ran, serves⟩ := inst_served opened.shape served
  unfold applyData
  split
  · next active =>
      obtain ⟨addr, there⟩ := exists_memoryAddr placed serves mem active
      obtain ⟨bits, offset⟩ := exists_offset opened serves (placed.data d mem active)
      apply Ends.step ran
      simp only [there]
      apply Ends.step rfl
      rw [offset]
      apply Ends.step rfl
      apply Ends.step rfl
      apply Ends.step rfl
      split
      · exact Ends.stop rfl ⟨.dataBounds _ _ _, opened⟩
      · refine Ends.of_ok rfl (opened.evolve ?_)
        exact .trans (.of_change (.writeMemory addr _ _)) (.of_change (.dropData _))
  · exact Ends.pure opened

/-! ## The start function -/

/-- Running the start function stops with a trap or goes on for too long; it is never
refused, since it takes nothing. -/
theorem runStart_traps (placed : m.Placed) (served : Served σ id m) (fuel : Nat)
    (opened : Opened σ l) :
    Ends (runStart fuel id m) l (fun _ l' => Opened σ l') (Traps σ m) := by
  obtain ⟨inst, ran, serves⟩ := inst_served opened.shape served
  unfold runStart
  split
  · next index start =>
      obtain ⟨addr, there, leads⟩ := serves.funcs.lookup (placed.start index start)
      obtain ⟨f, held, type⟩ : ∃ f, l.machine.store.funcs[addr]? = some f ∧ f.type = ⟨[], []⟩ := by
        rw [← opened.shape] at leads
        simpa [Store.shape] using leads
      apply Ends.step ran
      simp only [there]
      have ends := Run.invoke_evolves fuel addr [] l.machine
      refine Ends.discard ?_
      unfold Ends onMachine at *
      cases invoked : Run.invoke fuel addr [] l.machine with
      | ok results machine =>
          rw [invoked] at ends
          simp only [invoked]
          exact opened.evolve ends
      | error stop machine =>
          rw [invoked] at ends
          simp only [invoked]
          have opened : Opened σ ⟨machine, l.registry⟩ := opened.evolve ends.1
          cases stop with
          | trap t => exact ⟨.startFailed index t, opened⟩
          | refused r =>
              have unmatched := ends.2 r rfl f held
              rw [type] at unmatched
              cases unmatched
          | outOfFuel => exact ⟨by rw [start]; rfl, opened⟩
  · exact Ends.pure opened

/-! ## All stages -/

/-- How instantiation may stop: an import does not resolve, or a later stage traps. What
is left behind is in order in each case. -/
def External (l : Linker) (m : Module) : LinkStop → Linker → Prop
  | .failed e, l' =>
      ((∃ mod name problem, e = .importFailed mod name problem ∧ l.resolve m = .error e) ∨
        e.Trapped) ∧ l'.machine.store.Sealed
  | .outOfFuel, l' => m.start.isSome ∧ l'.machine.store.Sealed

theorem Traps.external {stop : LinkStop} {l' : Linker} (traps : Traps σ m stop l') :
    External l m stop l' := by
  cases stop with
  | failed e => exact ⟨.inr traps.1, traps.2.sealed⟩
  | outOfFuel => exact ⟨traps.1, traps.2.sealed⟩

/-- What fails for a list has failed for one of its items. -/
theorem exists_of_mapM_eq_error {ε α β : Type} {f : α → Except ε β} {items : List α} {e : ε}
    (failed : items.mapM f = .error e) : ∃ a ∈ items, f a = .error e := by
  induction items with
  | nil => cases failed
  | cons a rest ih =>
      rw [List.mapM_cons] at failed
      cases first : f a with
      | error e' =>
          rw [first] at failed
          cases failed
          exact ⟨a, List.mem_cons_self, first⟩
      | ok b =>
          rw [first] at failed
          cases others : rest.mapM f with
          | error e' =>
              rw [others] at failed
              cases failed
              obtain ⟨a', mem, failed⟩ := ih others
              exact ⟨a', List.mem_cons_of_mem a mem, failed⟩
          | ok bs =>
              rw [others] at failed
              cases failed

/-- An import that does not resolve is reported with its names. -/
theorem importFailed_of_resolve {e : LinkError} (failed : l.resolve m = .error e) :
    ∃ mod name problem, e = .importFailed mod name problem := by
  obtain ⟨imp, -, failed⟩ := exists_of_mapM_eq_error failed
  cases resolved : l.resolveImport m.types imp with
  | ok found =>
      rw [resolved] at failed
      cases failed
  | error problem =>
      rw [resolved] at failed
      cases failed
      exact ⟨_, _, _, rfl⟩

/-- A decoded and validated module is instantiated, or something outside of it is in the
way. -/
theorem instantiate_stops (checked : m.Checked) (placed : m.Placed)
    (sealed : l.machine.store.Sealed) (fuel : Nat) (name : String) :
    Ends (instantiate fuel m name) l
      (fun id l' => l'.machine.store.Serving id (.ofModule m) ∧ l'.machine.store.Sealed)
      (External l m) := by
  unfold instantiate
  cases resolved : l.resolve m with
  | error e =>
      apply Ends.step rfl
      simp only [resolved]
      obtain ⟨mod, field, problem, is⟩ := importFailed_of_resolve resolved
      exact Ends.stop rfl ⟨.inl ⟨mod, field, problem, is, resolved⟩, sealed⟩
  | ok externs =>
      apply Ends.step rfl
      simp only [resolved]
      apply Ends.step rfl
      have serves := Linker.serves_of_resolve name checked.imports resolved
      apply Ends.step (add_instance _)
      refine definitions_end (Store.sealed_upkeep _) checked
        ⟨Store.Serving.of_addInstance serves, sealed⟩ fun l₁ inv => ?_
      have served : Served l₁.machine.store.shape _ m := inv.1.home
      have opened : Opened l₁.machine.store.shape l₁ := ⟨rfl, inv.2⟩
      refine Ends.mono (?_ : Ends _ l₁ (fun id l' => id = l.machine.store.shape.instances.length ∧
        Opened l₁.machine.store.shape l') (Traps l₁.machine.store.shape m)) ?_
        fun _ _ traps => traps.external
      · refine Ends.bind (bindExports_opens placed served opened) fun _ l₂ opened => ?_
        refine Ends.bind (forEach_ends (fun _ l => Opened _ l) opened ?_) fun _ l₃ opened => ?_
        · intro done e rest same l opened
          exact applyElement_traps checked placed served (by simp [same]) opened
        refine Ends.bind (forEach_ends (fun _ l => Opened _ l) opened ?_) fun _ l₄ opened => ?_
        · intro done d rest same l opened
          exact applyData_traps placed served (by simp [same]) opened
        refine Ends.bind (runStart_traps placed served fuel opened) fun _ l₅ opened => ?_
        split
        · exact Ends.of_ok rfl ⟨rfl, opened.shape, opened.sealed⟩
        · exact Ends.of_ok rfl ⟨rfl, opened⟩
      · rintro _ l' ⟨rfl, opened⟩
        exact ⟨.of_home (opened.shape.symm ▸ served), opened.sealed⟩

end Link

end WasmMachine
