/-
# Isolation

Import-free modules are instantiated in one store, and then functions of their instances are
called in any order.  Each call changes only what the instance that it calls owns, and the
calls to one instance give what they would give without the calls to the others, to the
contents that the instance is left with.  Modules may be instantiated several times, calls
may trap, and nothing is asked of the code.  Arguments must not be references to functions,
since those would lead one instance to the functions of another.
-/

import WasmMachine.Proofs.Evolution.Operations
import WasmMachine.Proofs.Isolation.Separate
import WasmMachine.Proofs.Safety.Soundness

namespace WasmMachine

/-! ## One call -/

/-- A machine between calls: its instances are apart, nothing is on its stack, and nothing is
running. -/
structure Machine.AtRest (m : Machine) : Prop where
  separate : m.store.Separate
  stack : m.stack = {}
  frame : m.frame = none

/-- A call of a function by its address, to an instance. -/
structure Call where
  id : InstanceId
  addr : Addr
  args : List (Option Value)

namespace Call

/-- The invocation that a call makes. -/
def run (fuel : Nat) (c : Call) : Run (List Value) := Run.invoke fuel c.addr c.args

/-- A call is to a function of the instance, without references to functions. -/
structure Proper (c : Call) (inst : ModuleInstance) : Prop where
  own : c.addr ∈ inst.funcs
  args : ∀ addr, some (.ref (.func addr)) ∉ c.args

theorem Proper.within {c : Call} {inst : ModuleInstance} (proper : c.Proper inst) (x : Value)
    (mem : some x ∈ c.args) : x.Within inst := by
  cases x with
  | ref r =>
      cases r with
      | func addr => exact absurd mem (proper.args addr)
      | _ => trivial
  | _ => trivial

end Call

/-- However an invocation comes to its end, the stack, the frame and the depth are as
before. -/
theorem Machine.restored_after {fuel : Nat} {addr : Addr} {args : List (Option Value)} {m : Machine}
    (ended : outcome (Run.invoke fuel addr args) m ≠ .error .outOfFuel) :
    m.Restored (after (Run.invoke fuel addr args) m) := by
  have ends := Run.invoke_restored fuel addr args m
  unfold outcome at ended
  unfold Ends at ends
  unfold after
  split
  · next ran =>
      rw [ran] at ends
      exact ends
  · next stop _ ran =>
      rw [ran] at ends ended
      exact ends fun out => ended (congrArg Except.error out)

/-- Two machines between calls, of which one has served calls to further instances: they
differ in nothing but their stores, and there not in what the instance owns. -/
structure Twins (id : InstanceId) (inst : ModuleInstance) (m n : Machine) : Prop where
  atRest : m.AtRest
  atRest' : n.AtRest
  here : m.store.instances[id]? = some inst
  funcs : n.store.funcs = m.store.funcs
  instances : n.store.instances = m.store.instances
  inside : m.store.SameInside inst.Owns n.store
  same : n = { m with store := n.store }

namespace Twins

variable {id : InstanceId} {inst : ModuleInstance} {m n : Machine} {c : Call}

theorem refl (atRest : m.AtRest) (here : m.store.instances[id]? = some inst) :
    Twins id inst m m := ⟨atRest, atRest, here, rfl, rfl, .refl inst.Owns m.store, rfl⟩

/-- Where the instance runs. -/
def enclave (twins : Twins id inst m n) : Enclave where
  home := id
  inst := inst
  before := m
  other := n.store
  funcs := twins.funcs
  instances := twins.instances
  here := twins.here
  own := twins.atRest.separate.code id inst twins.here

theorem machines (twins : Twins id inst m n) : twins.enclave.Machines m n := by
  refine ⟨n.store, ?_, twins.same⟩
  exact {
    stores := {
      inside := twins.inside
      left := .refl inst.Owns m.store
      right := .refl inst.Owns n.store
      encloses := twins.atRest.separate.encloses id inst twins.here }
    stack := by
      rw [twins.atRest.stack]
      exact ⟨fun x mem => absurd mem List.not_mem_nil, fun l mem => absurd mem List.not_mem_nil⟩
    frame := fun f running => by
      rw [twins.atRest.frame] at running
      cases running
    options := rfl
    names := rfl
    records := rfl }

/-- A call to the instance gives the same in both machines. -/
theorem run (twins : Twins id inst m n) (fuel : Nat) (proper : c.Proper inst) :
    outcome (c.run fuel) m = outcome (c.run fuel) n ∧
      twins.enclave.Machines (after (c.run fuel) m) (after (c.run fuel) n) :=
  (Enclave.invoke_runs fuel proper.own proper.within).outcome_after twins.machines

end Twins

namespace Machine.AtRest

variable {m : Machine} {inst : ModuleInstance} {c : Call} {fuel : Nat}

/-- A call changes only what its instance owns, and leaves a machine between calls. -/
theorem call (atRest : m.AtRest) (found : m.store.instances[c.id]? = some inst)
    (proper : c.Proper inst) (ended : outcome (c.run fuel) m ≠ .error .outOfFuel) :
    (after (c.run fuel) m).AtRest ∧ m.store.SameOutside inst.Owns (after (c.run fuel) m).store ∧
      after (c.run fuel) m = { m with store := (after (c.run fuel) m).store } := by
  obtain ⟨-, t, inside, -⟩ := (Twins.refl atRest found).run fuel proper
  have restored : m.Restored (after (c.run fuel) m) := restored_after ended
  generalize after (c.run fuel) m = m' at inside restored ⊢
  have outside := inside.stores.left
  refine ⟨⟨atRest.separate.change found outside inside.stores.encloses,
    restored.stack.trans atRest.stack, restored.frame.trans atRest.frame⟩, outside, ?_⟩
  obtain ⟨store, stack, frame, depth, options, names, records⟩ := m'
  obtain ⟨rfl, rfl, rfl⟩ := restored
  obtain ⟨-, -, -, rfl, rfl, rfl⟩ := inside
  rfl

/-- The start function of an instance is called like any other. -/
theorem start {id : InstanceId} {addr : Addr} (atRest : m.AtRest)
    (found : m.store.instances[id]? = some inst) (own : addr ∈ inst.funcs) (fuel : Nat) :
    Ends (Run.invoke fuel addr []) m (fun _ m' => m'.AtRest)
      fun stop m' => stop ≠ .outOfFuel → m'.AtRest := by
  have left : outcome (Run.invoke fuel addr []) m ≠ .error .outOfFuel →
      (after (Run.invoke fuel addr []) m).AtRest := fun ended =>
    (call (c := ⟨id, addr, []⟩) atRest found ⟨own, fun _ => List.not_mem_nil⟩ ended).1
  unfold outcome after at left
  unfold Ends
  cases ran : Run.invoke fuel addr [] m with
  | ok results m' =>
      rw [ran] at left
      exact left (by simp)
  | error stop m' =>
      rw [ran] at left
      exact fun fueled => left (by simpa using fueled)

end Machine.AtRest

namespace Twins

variable {id : InstanceId} {inst other : ModuleInstance} {m n : Machine} {c : Call} {fuel : Nat}

/-- Twins are twins again when both have served a call to their instance. -/
theorem own (twins : Twins c.id inst m n) (proper : c.Proper inst)
    (ended : outcome (c.run fuel) m ≠ .error .outOfFuel) :
    Twins c.id inst (after (c.run fuel) m) (after (c.run fuel) n) := by
  obtain ⟨same, t, inside, left⟩ := twins.run fuel proper
  have here' : n.store.instances[c.id]? = some inst := twins.instances ▸ twins.here
  obtain ⟨atRest, outside, -⟩ := twins.atRest.call twins.here proper ended
  obtain ⟨atRest', -, -⟩ := twins.atRest'.call here' proper (same ▸ ended)
  rw [left] at atRest' ⊢
  exact ⟨atRest, atRest', outside.instances ▸ twins.here, inside.stores.funcs,
    inside.stores.instances, inside.stores.inside, rfl⟩

/-- They also are when only one of them has served a call to another instance. -/
theorem foreign (twins : Twins id inst m n) (found : m.store.instances[c.id]? = some other)
    (proper : c.Proper other) (distinct : c.id ≠ id)
    (ended : outcome (c.run fuel) m ≠ .error .outOfFuel) :
    Twins id inst (after (c.run fuel) m) n := by
  obtain ⟨atRest, outside, same⟩ := twins.atRest.call found proper ended
  refine ⟨atRest, twins.atRest', outside.instances ▸ twins.here,
    twins.funcs.trans outside.funcs.symm, twins.instances.trans outside.instances.symm,
    fun cell own => ?_, ?_⟩
  · have apart : ¬ other.Owns cell :=
      twins.atRest.separate.apart id c.id inst other twins.here found (Ne.symm distinct) cell own
    exact (twins.inside cell own).trans (outside.cells cell apart).symm
  · rw [same]
    exact twins.same

end Twins

/-! ## Making instances -/

/-- An instance that imports nothing starts with nothing. -/
theorem ModuleInstance.not_owns_fresh (m : Module) (name : String) (cell : Cell) :
    ¬ (fresh m name []).Owns cell := by
  cases cell with
  | _ => exact Array.not_mem_empty _

theorem Linker.eq_nil_of_resolve {l : Linker} {m : Module} {externs : List Extern}
    (alone : m.imports = []) (resolved : l.resolve m = .ok externs) : externs = [] := by
  unfold resolve at resolved
  rw [alone] at resolved
  cases resolved
  rfl

namespace Link

variable {l l' : Linker} {m : Module} {name : String} {stage : Stage} {externs : List Extern}

/-- Up to any stage the machine of a linker that makes an instance is between calls. -/
theorem Reached.atRest (reached : Reached l m (.fresh m name externs) stage l')
    (atRest : l.machine.AtRest) (alone : m.imports = []) (resolved : l.resolve m = .ok externs) :
    l'.machine.AtRest := by
  cases Linker.eq_nil_of_resolve alone resolved
  have separate := reached.made.separate atRest.separate (ModuleInstance.not_owns_fresh m name) rfl
  rw [reached.same]
  exact ⟨separate, atRest.stack, atRest.frame⟩

/-- However an instantiation comes to its end, the machine is between calls again. -/
theorem instantiate_atRest (fuel : Nat) (name : String) (atRest : l.machine.AtRest)
    (alone : m.imports = []) :
    Ends (instantiate fuel m name) l (fun _ l' => l'.machine.AtRest)
      fun stop l' => stop ≠ .outOfFuel → l'.machine.AtRest := by
  refine Ends.mono (instantiate_course fuel m name l) ?_ ?_
  · rintro id l' ⟨externs, inst, l₁, l₂, resolved, reached, found, started, -, rfl⟩
    have ready := reached.atRest atRest alone resolved
    have left : l₂.machine.AtRest := by
      cases started with
      | none _ => exact ready
      | @returned index addr results machine _ there ran =>
          exact (ready.start found (Array.mem_of_getElem? there) fuel).good ran
    split
    · exact left
    · exact left
  · intro stop l' stopped fueled
    cases stopped with
    | unresolved _ => exact atRest
    | hindered resolved hindered =>
        obtain ⟨stage, reached⟩ := hindered.exists_reached
        exact reached.atRest atRest alone resolved
    | @crashed externs inst _ l₁ _ resolved reached found crashed =>
        have ready := reached.atRest atRest alone resolved
        cases crashed with
        | @intro index addr stop machine _ there ran =>
            refine (ready.start found (Array.mem_of_getElem? there) fuel).bad ran ?_
            rintro rfl
            exact fueled rfl

/-- The cells that are added while an instance is made are those that it owns. -/
theorem instantiate_furnishes (fuel : Nat) (name : String) (alone : m.imports = []) :
    Ends (instantiate fuel m name) l
      (fun _ l' => l.machine.store.Furnishes l'.machine.store)
      fun _ l' => l.machine.store.Furnishes l'.machine.store := by
  refine instantiate_keeps (P := fun s => l.machine.store.Furnishes s) fuel name (.refl _)
    (fun externs resolved => ?_) (fun _ _ furnishes addition => furnishes.add addition)
    fun _ _ furnishes evolves => evolves.keeps (fun _ _ change before => before.change change) furnishes
  cases Linker.eq_nil_of_resolve alone resolved
  exact .fresh _ (ModuleInstance.not_owns_fresh m name)

end Link

/-! ## Many calls -/

namespace Machine

/-- The machine that is left behind by calls which are made one after the other. -/
def serve (fuel : Nat) (m : Machine) (calls : List Call) : Machine :=
  calls.foldl (fun m c => after (c.run fuel) m) m

/-- What calls give that are made one after the other, each with the instance it is to. -/
def answers (fuel : Nat) : Machine → List Call → List (InstanceId × Except Stop (List Value))
  | _, [] => []
  | m, c :: rest => (c.id, outcome (c.run fuel) m) :: answers fuel (after (c.run fuel) m) rest

/-- All calls are to functions of instances that are there. -/
def Serves (m : Machine) (calls : List Call) : Prop :=
  ∀ c ∈ calls, ∃ inst, m.store.instances[c.id]? = some inst ∧ c.Proper inst

/-- All calls come to their end. -/
def Ended (fuel : Nat) (m : Machine) (calls : List Call) : Prop :=
  ∀ answer ∈ m.answers fuel calls, answer.2 ≠ .error .outOfFuel

/-- Whether an answer is that the fuel was used up. -/
instance (answer : Except Stop (List Value)) : Decidable (answer = .error .outOfFuel) :=
  match answer with
  | .ok _ => isFalse (by simp)
  | .error (.trap _) => isFalse (by simp)
  | .error (.refused _) => isFalse (by simp)
  | .error .outOfFuel => isTrue rfl

instance (fuel : Nat) (m : Machine) (calls : List Call) : Decidable (m.Ended fuel calls) :=
  inferInstanceAs (Decidable (∀ answer ∈ m.answers fuel calls, answer.2 ≠ .error .outOfFuel))

variable {m n : Machine} {fuel : Nat} {calls : List Call} {c : Call}

theorem Serves.of_instances (serves : m.Serves calls)
    (same : n.store.instances = m.store.instances) : n.Serves calls := by
  intro c mem
  rw [same]
  exact serves c mem

theorem answers_cons (fuel : Nat) (m : Machine) (c : Call) (rest : List Call) :
    m.answers fuel (c :: rest)
      = (c.id, outcome (c.run fuel) m) :: (after (c.run fuel) m).answers fuel rest := rfl

theorem answers_append (fuel : Nat) (m : Machine) (before later : List Call) :
    m.answers fuel (before ++ later)
      = m.answers fuel before ++ (m.serve fuel before).answers fuel later := by
  induction before generalizing m with
  | nil => rfl
  | cons c rest ih => exact congrArg _ (ih (after (c.run fuel) m))

theorem Ended.append {before later : List Call} (ended : m.Ended fuel (before ++ later)) :
    m.Ended fuel before ∧ (m.serve fuel before).Ended fuel later := by
  unfold Ended at *
  rw [answers_append] at ended
  exact List.forall_mem_append.mp ended

theorem Ended.tail {rest : List Call} (ended : m.Ended fuel (c :: rest)) :
    (after (c.run fuel) m).Ended fuel rest :=
  fun answer mem => ended answer (List.mem_cons_of_mem _ mem)

theorem Ended.head {rest : List Call} (ended : m.Ended fuel (c :: rest)) :
    outcome (c.run fuel) m ≠ .error .outOfFuel := ended _ List.mem_cons_self

/-- Between calls the instances are apart and nothing is running. -/
theorem AtRest.serve (atRest : m.AtRest) (serves : m.Serves calls) (ended : m.Ended fuel calls) :
    (m.serve fuel calls).AtRest ∧ (m.serve fuel calls).store.instances = m.store.instances := by
  induction calls generalizing m with
  | nil => exact ⟨atRest, rfl⟩
  | cons c rest ih =>
      obtain ⟨inst, found, proper⟩ := serves c List.mem_cons_self
      obtain ⟨atRest', outside, -⟩ := atRest.call found proper ended.head
      have serves' : (after (c.run fuel) m).Serves rest :=
        Serves.of_instances (fun c mem => serves c (List.mem_cons_of_mem _ mem)) outside.instances
      obtain ⟨atRest'', same⟩ := ih atRest' serves' ended.tail
      exact ⟨atRest'', same.trans outside.instances⟩

end Machine

/-- Twins stay twins when one serves all calls and the other those to their instance, and the
calls to it give the same in both. -/
theorem Twins.serve {id : InstanceId} {inst : ModuleInstance} {m n : Machine} {fuel : Nat}
    {calls : List Call} (twins : Twins id inst m n) (serves : m.Serves calls)
    (ended : m.Ended fuel calls) :
    n.answers fuel (calls.filter fun c => c.id = id)
        = (m.answers fuel calls).filter (fun answer => answer.1 = id) ∧
      Twins id inst (m.serve fuel calls) (n.serve fuel (calls.filter fun c => c.id = id)) := by
  induction calls generalizing m n with
  | nil => exact ⟨rfl, twins⟩
  | cons c rest ih =>
      obtain ⟨other, found, proper⟩ := serves c List.mem_cons_self
      obtain ⟨-, outside, -⟩ := twins.atRest.call found proper ended.head
      have serves' : (after (c.run fuel) m).Serves rest :=
        Machine.Serves.of_instances (fun c mem => serves c (List.mem_cons_of_mem _ mem))
          outside.instances
      rw [Machine.answers_cons]
      by_cases same : c.id = id
      · subst same
        cases twins.here.symm.trans found
        obtain ⟨equal, served⟩ := ih (twins.own proper ended.head) serves' ended.tail
        rw [List.filter_cons_of_pos (by simp), List.filter_cons_of_pos (by simp),
          Machine.answers_cons]
        exact ⟨congr (congrArg _ (congrArg _ (twins.run fuel proper).1.symm)) equal, served⟩
      · obtain ⟨equal, served⟩ := ih (twins.foreign found proper same ended.head) serves' ended.tail
        rw [List.filter_cons_of_neg (by simpa using same),
          List.filter_cons_of_neg (by simpa using same)]
        exact ⟨equal, served⟩

namespace Linker

/-- The linkers that come about from an empty store by instantiating modules without imports,
each with the cells that were added to the store for an instance. An instantiation may fail,
and nothing else is asked of the modules. -/
inductive Populated (options : Options) : (InstanceId → Cell → Prop) → Linker → Prop
  | empty : Populated options (fun _ _ => False) (Embedding.new options).linker
  | instantiate {allocated : InstanceId → Cell → Prop} {l l' : Linker} {fuel : Nat} {m : Module}
      {name : String} (before : Populated options allocated l) (alone : m.imports = [])
      (leaves : (Link.instantiate fuel m name).Leaves l l') :
      Populated options
        (Function.update allocated l.machine.store.instances.size
          (l.machine.store.Adds l'.machine.store)) l'

variable {options : Options} {allocated : InstanceId → Cell → Prop} {l : Linker} {fuel : Nat}
  {calls : List Call}

/-- Instances of modules without imports are apart, and each owns what was added for it. -/
theorem Populated.atRest (populated : l.Populated options allocated) :
    l.machine.AtRest ∧ ∀ id inst, l.machine.store.instances[id]? = some inst →
      ∀ cell, inst.Owns cell ↔ allocated id cell := by
  induction populated with
  | empty => exact ⟨⟨Store.separate_empty, rfl, rfl⟩, fun _ _ found => nomatch found⟩
  | @instantiate allocated l l' fuel m name _ alone leaves ih =>
      obtain ⟨atRest, owns⟩ := ih
      have made := (Link.instantiate_atRest fuel name atRest alone).both
        (Link.instantiate_furnishes fuel name alone)
      have left : l'.machine.AtRest ∧ l.machine.store.Furnishes l'.machine.store := by
        rcases leaves with ⟨id, ran⟩ | ⟨e, ran⟩
        · exact made.good ran
        · exact ⟨(made.bad ran).1 (by simp), (made.bad ran).2⟩
      refine ⟨left.1, fun id inst found cell => ?_⟩
      by_cases new : id = l.machine.store.instances.size
      · subst new
        rw [Function.update_self]
        exact left.2.owns inst found cell
      · rw [Function.update_of_ne new]
        rw [left.2.others id new] at found
        exact owns id inst found cell

/-- Instances of modules without imports are isolated from one another. Functions of them are
called in any order, with arguments that hold no references to functions. Each call changes
only cells that were added to the store for its instance; and the calls to one instance give
the same results and traps, and leave the same in the cells that were added for it, when the
calls to all others are left out. -/
theorem Populated.isolated (populated : l.Populated options allocated)
    (serves : l.machine.Serves calls) (ended : l.machine.Ended fuel calls) :
    (∀ before c later, calls = before ++ c :: later →
      (l.machine.serve fuel before).store.SameOutside (allocated c.id)
        (l.machine.serve fuel (before ++ [c])).store) ∧
    ∀ id < l.machine.store.instances.size,
      l.machine.answers fuel (calls.filter fun c => c.id = id)
          = (l.machine.answers fuel calls).filter (fun answer => answer.1 = id) ∧
        (l.machine.serve fuel calls).store.SameInside (allocated id)
          (l.machine.serve fuel (calls.filter fun c => c.id = id)).store := by
  obtain ⟨atRest, owns⟩ := populated.atRest
  refine ⟨fun before c later split => ?_, fun id inside => ?_⟩
  · subst split
    obtain ⟨ended, ended'⟩ := ended.append
    obtain ⟨ready, same⟩ := atRest.serve (fun c mem => serves c (List.mem_append_left _ mem)) ended
    obtain ⟨inst, found, proper⟩ := serves c (List.mem_append_right _ List.mem_cons_self)
    have found' : (l.machine.serve fuel before).store.instances[c.id]? = some inst := same ▸ found
    obtain ⟨-, outside, -⟩ := ready.call found' proper ended'.head
    have behind : l.machine.serve fuel (before ++ [c])
        = after (c.run fuel) (l.machine.serve fuel before) := List.foldl_append
    rw [behind]
    exact ⟨outside.funcs, outside.instances, fun cell foreign =>
      outside.cells cell fun own => foreign ((owns c.id inst found cell).mp own)⟩
  · have found := Array.getElem?_eq_getElem inside
    obtain ⟨equal, twins⟩ := (Twins.refl atRest found).serve serves ended
    exact ⟨equal, fun cell own => twins.inside cell ((owns id _ found cell).mpr own)⟩

/-- A module with a counter, a function that counts and gives the number, and a function that
traps. -/
def counterModule : Module :=
  { types := [⟨[], [.i32]⟩]
    funcs := [0, 0]
    globals := [⟨⟨.i32, true⟩, [.plain Opcode.i32Const (some (.i32 0))]⟩]
    code :=
      [⟨[], [.plain Opcode.globalGet (some (.globalIndex 0)),
          .plain Opcode.i32Const (some (.i32 1)), .plain 0x6a none,
          .plain Opcode.globalSet (some (.globalIndex 0)),
          .plain Opcode.globalGet (some (.globalIndex 0))]⟩,
        ⟨[], [.plain Opcode.unreachable none]⟩] }

/-- A linker with two instances of it. -/
def counterLinker : Linker :=
  after (Link.instantiate 1 counterModule "second")
    (after (Link.instantiate 1 counterModule "first") (Embedding.new {}).linker)

/-- The first instance counts, the second one traps and counts, and the first one counts
again. -/
def counterCalls : List Call := [⟨0, 0, []⟩, ⟨1, 3, []⟩, ⟨1, 2, []⟩, ⟨0, 0, []⟩]

set_option maxRecDepth 20000 in
/-- The first instance counts to two without the second one, as it does with it. -/
theorem Populated.isolated_counters :
    counterLinker.machine.answers 12 (counterCalls.filter fun c => c.id = 0)
        = (counterLinker.machine.answers 12 counterCalls).filter (fun answer => answer.1 = 0) ∧
      (counterLinker.machine.answers 12 counterCalls).map (fun answer => (answer.1, answer.2.toOption))
        = [(0, some [.i32 1]), (1, none), (1, some [.i32 1]), (0, some [.i32 2])] := by
  have first : Link.instantiate 1 counterModule "first" (Embedding.new {}).linker
      = .ok 0 (after (Link.instantiate 1 counterModule "first") (Embedding.new {}).linker) := rfl
  have second : Link.instantiate 1 counterModule "second"
      (after (Link.instantiate 1 counterModule "first") (Embedding.new {}).linker)
      = .ok 1 counterLinker := rfl
  have populated := Populated.instantiate (.instantiate .empty rfl (.inl ⟨0, first⟩)) rfl
    (.inl ⟨1, second⟩)
  have serves : counterLinker.machine.Serves counterCalls := by
    have own : ∀ c ∈ counterCalls, ∃ inst ∈ counterLinker.machine.store.instances[c.id]?,
        c.addr ∈ inst.funcs ∧ c.args = [] := by decide +kernel
    intro c mem
    obtain ⟨inst, found, listed, none⟩ := own c mem
    exact ⟨inst, found, listed, fun _ => none ▸ List.not_mem_nil⟩
  have ended : counterLinker.machine.Ended 12 counterCalls := by decide +kernel
  exact ⟨((populated.isolated serves ended).2 0 (by decide +kernel)).1, by decide +kernel⟩

end Linker

end WasmMachine
