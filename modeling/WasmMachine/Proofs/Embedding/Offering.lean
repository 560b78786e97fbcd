/-
# Modules of registered functions

A namespace is offered to modules as an instance that the embedder makes of the functions
registered in it.  If one of them has no implementation nothing is made.  Otherwise the
functions are put behind those of the store, the instance behind the other instances, and
the instance exports each function under its name and nothing else.
-/

import WasmMachine.Host.Registry
import WasmMachine.Link.HostModule
import WasmMachine.Proofs.Linking.Exports

namespace WasmMachine

/-! ## Instances that offer functions of the embedder -/

/-- An instance exports all the functions that are given, each under its name, as functions of
the embedder with their signatures and implementations; and it exports nothing else. -/
structure ModuleInstance.Provides (inst : ModuleInstance) (s : Store) (ns : String)
    (Given : HostFunction → Prop) : Prop where
  exported : ∀ f, Given f → ∃ addr behaviour, f.behaviour = some behaviour ∧
    inst.export? f.name = some ⟨.func, addr⟩ ∧
    s.funcs[addr]? = some (.host ⟨ns ++ "." ++ f.name, f.type, behaviour⟩)
  only : ∀ name found, inst.export? name = some found → ∃ f, Given f ∧ f.name = name

namespace ModuleInstance.Provides

variable {inst : ModuleInstance} {s s' : Store} {ns : String} {Given : HostFunction → Prop}

/-- Functions of a store stay what they are. -/
theorem keep (provides : inst.Provides s ns Given) (funcs : Persists Eq s.funcs s'.funcs) :
    inst.Provides s' ns Given where
  exported f given := by
    obtain ⟨addr, behaviour, implemented, exported, found⟩ := provides.exported f given
    obtain ⟨_, found', rfl⟩ := funcs addr _ found
    exact ⟨addr, behaviour, implemented, exported, found'⟩
  only := provides.only

end ModuleInstance.Provides

/-- A registered function as a definition of a module. -/
def HostFunction.definition (f : HostFunction) : HostDef := ⟨f.name, .func f.type f.behaviour⟩

/-- The function of a store that a registered function becomes. -/
def HostFunction.code (ns : String) (f : HostFunction) : FuncInst :=
  .host ⟨ns ++ "." ++ f.name, f.type, f.behaviour.getD (.const [])⟩

namespace Store

variable {s : Store}

/-- A store with further functions behind those that it has. -/
def withFuncs (s : Store) (funcs : List FuncInst) : Store :=
  { s with funcs := s.funcs ++ funcs.toArray }

theorem withFuncs_nil (s : Store) : s.withFuncs [] = s := by
  unfold withFuncs
  rw [Array.append_empty]

theorem withFuncs_cons (s : Store) (f : FuncInst) (funcs : List FuncInst) :
    s.withFuncs (f :: funcs) = (s.addFunc f).2.withFuncs funcs := by
  unfold withFuncs addFunc
  rw [Array.push_eq_append, Array.append_assoc]
  simp

theorem persists_withFuncs (s : Store) (funcs : List FuncInst) :
    Persists Eq s.funcs (s.withFuncs funcs).funcs := by
  intro i f found
  obtain ⟨inside, -⟩ := Array.getElem?_eq_some_iff.mp found
  exact ⟨f, (Array.getElem?_append_left inside).trans found, rfl⟩

end Store

namespace ModuleInstance

variable {inst : ModuleInstance} {s : Store} {ns : String}

/-- The instance with one more function that it exports. -/
def withFunction (inst : ModuleInstance) (f : HostFunction) (addr : Addr) : ModuleInstance :=
  ({ inst with types := inst.types ++ [f.type] }.addAddress ⟨.func, addr⟩).addExport f.name
    ⟨.func, addr⟩

theorem export?_withFunction (inst : ModuleInstance) (f : HostFunction) (addr : Addr)
    (name : String) : (inst.withFunction f addr).export? name =
      if name = f.name then some ⟨.func, addr⟩ else inst.export? name :=
  export?_addExport _ f.name name ⟨.func, addr⟩

/-- An instance that exports nothing provides no functions. -/
theorem provides_nil (blank : inst.exports = []) : inst.Provides s ns (· ∈ []) where
  exported f given := absurd given List.not_mem_nil
  only name found exported := by
    unfold export? at exported
    rw [blank] at exported
    cases exported

/-- One more function is exported, unless it takes the name of another one. -/
theorem Provides.withFunction {done : List HostFunction} {f : HostFunction}
    (provides : inst.Provides s ns (· ∈ done)) (implemented : f.behaviour ≠ none)
    (named : ∀ g ∈ done, g.name = f.name → g = f) :
    (inst.withFunction f s.funcs.size).Provides (s.addFunc (f.code ns)).2 ns
      (· ∈ done ++ [f]) where
  exported g given := by
    rw [export?_withFunction]
    by_cases same : g.name = f.name
    · obtain rfl : g = f :=
        (List.mem_append.mp given).elim (fun mem => named g mem same) List.mem_singleton.mp
      obtain ⟨behaviour, is⟩ := Option.ne_none_iff_exists'.mp implemented
      refine ⟨s.funcs.size, behaviour, is, if_pos rfl, ?_⟩
      have there : (s.addFunc (g.code ns)).2.funcs[s.funcs.size]? = some (g.code ns) :=
        Array.getElem?_push_size
      rw [there]
      unfold HostFunction.code
      rw [is, Option.getD_some]
    · have mem : g ∈ done :=
        (List.mem_append.mp given).elim id fun new =>
          absurd (congrArg HostFunction.name (List.mem_singleton.mp new)) same
      rw [if_neg same]
      exact (provides.keep (s.retains_addFunc (f.code ns)).funcs).exported g mem
  only name found exported := by
    rw [export?_withFunction] at exported
    by_cases same : name = f.name
    · exact ⟨f, List.mem_append_right done List.mem_cons_self, same.symm⟩
    · rw [if_neg same] at exported
      obtain ⟨g, mem, is⟩ := provides.only name found exported
      exact ⟨g, List.mem_append_left [f] mem, is⟩

end ModuleInstance

namespace Link

variable {ns : String} {l : Linker} {inst : ModuleInstance}

/-! ## Checking -/

theorem check_definition (ns : String) (f : HostFunction) :
    f.definition.check ns = if f.behaviour = none then .error (.hostFunction ns f.name) else .ok () := by
  obtain ⟨name, type, behaviour⟩ := f
  cases behaviour with
  | none => rfl
  | some behaviour => rfl

/-- The first function without an implementation is reported. -/
theorem check_definitions (ns : String) (fs : List HostFunction) :
    ((∀ f ∈ fs, f.behaviour ≠ none) ∧
      (fs.map HostFunction.definition).forM (HostDef.check ns) = .ok ()) ∨
    ∃ f ∈ fs, f.behaviour = none ∧
      (fs.map HostFunction.definition).forM (HostDef.check ns) = .error (.hostFunction ns f.name) := by
  induction fs with
  | nil => exact .inl ⟨fun f mem => absurd mem List.not_mem_nil, rfl⟩
  | cons f fs ih =>
      have first : ((f :: fs).map HostFunction.definition).forM (HostDef.check ns) =
          (f.definition.check ns >>= fun _ =>
            (fs.map HostFunction.definition).forM (HostDef.check ns)) := rfl
      rw [first, check_definition]
      by_cases lacking : f.behaviour = none
      · exact .inr ⟨f, List.mem_cons_self, lacking, by rw [if_pos lacking]; rfl⟩
      · rw [if_neg lacking]
        rcases ih with ⟨all, passed⟩ | ⟨g, mem, lacking', refused⟩
        · exact .inl ⟨List.forall_mem_cons.mpr ⟨lacking, all⟩, passed⟩
        · exact .inr ⟨g, List.mem_cons_of_mem f mem, lacking', refused⟩

/-! ## Making the instance -/

/-- Functions that are added one by one all come to be exported; `done` are those that were
added before. -/
theorem addFunctions (ns : String) {done fs : List HostFunction}
    (implemented : ∀ f ∈ fs, f.behaviour ≠ none)
    (named : ∀ f ∈ done ++ fs, ∀ g ∈ done ++ fs, f.name = g.name → f = g)
    (provides : inst.Provides l.machine.store ns (· ∈ done)) :
    ∃ inst', (fs.map HostFunction.definition).foldlM (addHostDef ns) inst l =
        .ok inst' (l.withStore (l.machine.store.withFuncs (fs.map (·.code ns)))) ∧
      inst'.name = inst.name ∧
      inst'.Provides (l.machine.store.withFuncs (fs.map (·.code ns))) ns (· ∈ done ++ fs) := by
  induction fs generalizing done inst l with
  | nil =>
      rw [List.map_nil, List.map_nil, Store.withFuncs_nil, List.append_nil]
      exact ⟨inst, rfl, rfl, provides⟩
  | cons f fs ih =>
      rw [List.map_cons, List.map_cons, Store.withFuncs_cons]
      have front : ∀ g ∈ done, g.name = f.name → g = f := fun g mem =>
        named g (List.mem_append_left _ mem) f (List.mem_append_right _ List.mem_cons_self)
      have added := provides.withFunction (implemented f List.mem_cons_self) front
      rw [List.append_cons] at named ⊢
      obtain ⟨inst', ran, same, provides'⟩ :=
        ih (l := l.withStore (l.machine.store.addFunc (f.code ns)).2)
          (fun g mem => implemented g (List.mem_cons_of_mem f mem)) named added
      exact ⟨inst', ran, same, provides'⟩

/-- Making a module of functions. Either all of them have an implementation, and the store is
as before but for the functions and an instance that provides them, which has the name now; or
one has none, and nothing has happened. -/
theorem hostModule_functions (ns : String) {fs : List HostFunction} (l : Linker)
    (named : ∀ f ∈ fs, ∀ g ∈ fs, f.name = g.name → f = g) :
    Ends (hostModule ns (fs.map HostFunction.definition)) l
      (fun id l' => (∀ f ∈ fs, f.behaviour ≠ none) ∧ ∃ inst, inst.name = ns ∧
        inst.Provides l'.machine.store ns (· ∈ fs) ∧ id = l.machine.store.instances.size ∧
        l' = (l.withStore ((l.machine.store.withFuncs (fs.map (·.code ns))).addInstance inst).2).register
          ns id)
      fun stop l' => l' = l ∧ ∃ f ∈ fs, f.behaviour = none ∧
        stop = .failed (.hostFunction ns f.name) := by
  unfold hostModule
  rcases check_definitions ns fs with ⟨implemented, passed⟩ | ⟨f, mem, lacking, refused⟩
  · rw [passed]
    apply Ends.step rfl
    have blank : ModuleInstance.Provides { name := ns } l.machine.store ns (· ∈ []) :=
      ModuleInstance.provides_nil rfl
    obtain ⟨inst, ran, same, provides⟩ := addFunctions ns implemented named blank
    refine Ends.step ran (Ends.step rfl (Ends.of_ok rfl ?_))
    exact ⟨implemented, inst, same, provides.keep (.refl (fun _ => rfl) _), rfl, rfl⟩
  · rw [refused]
    exact Ends.stop rfl ⟨rfl, f, mem, lacking, rfl⟩

end Link

end WasmMachine
