/-
# Instantiation follows its course

Each stage of an instantiation does what the course allows, and stops only where something
is in the way.  The stages are put together at the end: an instantiation that ends well has
come to the end of the course, and one that fails has left the store as it was made up to
the point of failure, in a linker that is otherwise the same.
-/

import WasmMachine.Proofs.Linking.Course
import WasmMachine.Proofs.Safety.Instantiation

namespace WasmMachine

namespace Link

/-- A linker on its way from `start`: its store has been made up to a stage, and nothing else
of it has changed. -/
structure Reached (start : Linker) (m : Module) (first : ModuleInstance) (stage : Stage)
    (l : Linker) : Prop where
  made : start.machine.store.Made m first stage l.machine.store
  same : l = start.withStore l.machine.store

/-- How a stage stops when something is in its way. -/
def Hindered (start : Linker) (m : Module) (first : ModuleInstance) : LinkStop → Linker → Prop
  | .failed e, l => ∃ stage inst, Reached start m first stage l ∧
      l.machine.store.instances[start.machine.store.instances.size]? = some inst ∧
      Store.Obstacle m inst l.machine.store stage e
  | .outOfFuel, _ => False

/-- While definitions are added, the number of segments that the instance has so far is
known. -/
structure Adding (start : Linker) (m : Module) (first : ModuleInstance) (elems datas : Nat)
    (l : Linker) : Prop where
  reached : Reached start m first .definitions l
  counts : l.machine.store.Counts start.machine.store.instances.size elems datas

variable {start l : Linker} {m : Module} {first inst : ModuleInstance} {n k n' k' : Nat}
  {s : Store} {stage : Stage} {e : LinkError}

theorem Hindered.exists_reached {stop : LinkStop} (hindered : Hindered start m first stop l) :
    ∃ stage, Reached start m first stage l := by
  cases stop with
  | outOfFuel => exact hindered.elim
  | failed e =>
      obtain ⟨stage, inst, reached, -, -⟩ := hindered
      exact ⟨stage, reached⟩

theorem Reached.withStore (reached : Reached start m first stage l) {stage' : Stage}
    (made : start.machine.store.Made m first stage' s) :
    Reached start m first stage' (l.withStore s) := by
  refine ⟨made, ?_⟩
  rw [reached.same]
  rfl

theorem Adding.withStore (adding : Adding start m first n k l)
    (addition : l.machine.store.Addition m start.machine.store.instances.size s)
    (counts : s.Counts start.machine.store.instances.size n' k') :
    Adding start m first n' k' (l.withStore s) :=
  ⟨adding.reached.withStore (.add adding.reached.made addition), counts⟩

theorem Adding.hindered (adding : Adding start m first n k l)
    (found : l.machine.store.instances[start.machine.store.instances.size]? = some inst)
    (obstacle : Store.Obstacle m inst l.machine.store .definitions e) :
    Hindered start m first (.failed e) l := ⟨.definitions, inst, adding.reached, found, obstacle⟩

/-- The instance that is being made, once it is known to be there. -/
theorem inst_eq {id : InstanceId} (found : l.machine.store.instances[id]? = some inst) :
    Link.inst id l = .ok inst l := by
  show EStateM.Result.ok (l.machine.store.instances[id]?.getD {}) l = _
  rw [found, Option.getD_some]

/-! ## Definitions -/

theorem addFuncs_adding (adding : Adding start m first n k l) :
    Ends (addFuncs start.machine.store.instances.size m) l
      (fun _ l' => Adding start m first n k l') (Hindered start m first) := by
  obtain ⟨inst, found, -, -⟩ := adding.counts
  unfold addFuncs
  by_cases fits : m.funcs.length = m.code.length
  · rw [if_neg (not_not.mpr fits)]
    refine forEach_ends (fun _ l => Adding start m first n k l) adding ?_
    rintro done ⟨index, body⟩ rest same l adding
    have mem : (index, body) ∈ m.funcs.zip m.code := by simp [same]
    obtain ⟨declared, defined⟩ := List.of_mem_zip mem
    obtain ⟨inst, found, -, -⟩ := adding.counts
    cases known : m.types[index.toNat]? with
    | none =>
        simp only [known]
        exact adding.hindered found (.funcType declared known)
    | some type =>
        simp only [known]
        refine Ends.of_ok rfl ?_
        exact adding.withStore (.func declared known defined) (adding.counts.place _ rfl)
  · rw [if_pos fits]
    exact Ends.stop rfl (adding.hindered found (.bodyCount fits))

theorem addTablesAndMemories_adding (adding : Adding start m first n k l)
    {Bad : LinkStop → Linker → Prop} :
    Ends (addTablesAndMemories start.machine.store.instances.size m) l
      (fun _ l' => Adding start m first n k l') Bad := by
  unfold addTablesAndMemories
  refine Ends.bind (Ends.forM (fun _ l => Adding start m first n k l) adding ?_)
    fun _ l adding => Ends.forM (fun _ l => Adding start m first n k l) adding ?_
  · intro done type rest same l adding
    refine Ends.of_ok rfl ?_
    exact adding.withStore (.table (by simp [same])) (adding.counts.place _ rfl)
  · intro done type rest same l adding
    refine Ends.of_ok rfl ?_
    exact adding.withStore (.memory (by simp [same])) (adding.counts.place _ rfl)

theorem addGlobals_adding (adding : Adding start m first n k l) :
    Ends (addGlobals start.machine.store.instances.size m) l
      (fun _ l' => Adding start m first n k l') (Hindered start m first) := by
  unfold addGlobals
  refine forEach_ends (fun _ l => Adding start m first n k l) adding ?_
  intro done g rest same l adding
  have mem : g ∈ m.globals := by simp [same]
  obtain ⟨inst, found, -, -⟩ := adding.counts
  apply Ends.step rfl
  apply Ends.step (inst_eq found)
  cases ran : l.machine.store.constant inst g.init with
  | error problem => exact Ends.stop rfl (adding.hindered found (.globalValue mem ran))
  | ok v =>
      apply Ends.step rfl
      by_cases typed : v.type = g.type.type
      · rw [if_neg (not_not.mpr typed)]
        refine Ends.of_ok rfl ?_
        exact adding.withStore (.global mem found ran typed) (adding.counts.place _ rfl)
      · rw [if_pos typed]
        exact Ends.stop rfl (adding.hindered found (.globalInit mem ran typed))

theorem elementRefs_adding (adding : Adding start m first n k l) {e : Element}
    (mem : e ∈ m.elements)
    (found : l.machine.store.instances[start.machine.store.instances.size]? = some inst) :
    Ends (elementRefs start.machine.store.instances.size e) l
      (fun refs l' => (∀ r ∈ refs, l.machine.store.Denotes inst e r) ∧ l' = l)
      (Hindered start m first) := by
  unfold elementRefs
  split
  · refine Ends.mapM (· = l) rfl ?_
    rintro func listed l rfl
    apply Ends.step (inst_eq found)
    cases there : inst.funcs[func.toNat]? with
    | none => exact adding.hindered found (.elementFunc mem listed there)
    | some addr => exact Ends.pure ⟨.inl ⟨addr, Array.mem_of_getElem? there, rfl⟩, rfl⟩
  · refine Ends.mapM (· = l) rfl ?_
    rintro expr listed l rfl
    apply Ends.step rfl
    apply Ends.step (inst_eq found)
    cases ran : l.machine.store.constant inst expr with
    | error problem => exact Ends.stop rfl (adding.hindered found (.elementValue mem listed ran))
    | ok v =>
        apply Ends.step rfl
        cases v with
        | ref r => exact Ends.pure ⟨.inr ⟨expr, listed, ran⟩, rfl⟩
        | _ => exact adding.hindered found (.elementEntry mem listed ran (by simp))

theorem addSegments_adding (adding : Adding start m first 0 0 l) :
    Ends (addSegments start.machine.store.instances.size m) l
      (fun _ l' => Adding start m first m.elements.length m.data.length l')
      (Hindered start m first) := by
  unfold addSegments
  refine Ends.bind (Ends.forM (fun done l => Adding start m first done.length 0 l) adding ?_)
    fun _ l adding =>
      Ends.forM (fun done l => Adding start m first m.elements.length done.length l) adding ?_
  · intro done e rest same l adding
    have mem : e ∈ m.elements := by simp [same]
    obtain ⟨inst, found, -, -⟩ := adding.counts
    refine Ends.bind (elementRefs_adding adding mem found) ?_
    rintro refs _ ⟨denoted, rfl⟩
    refine Ends.of_ok rfl ?_
    refine adding.withStore (.elem mem found denoted) (adding.counts.modify ?_ rfl)
    intro inst elems datas
    simp [elems, datas]
  · intro done d rest same l adding
    refine Ends.of_ok rfl ?_
    refine adding.withStore (.data (by simp [same])) (adding.counts.modify ?_ rfl)
    intro inst elems datas
    simp [elems, datas]

theorem bindExports_adding (adding : Adding start m first n k l) :
    Ends (bindExports start.machine.store.instances.size m) l
      (fun _ l' => Adding start m first n k l') (Hindered start m first) := by
  unfold bindExports
  refine Ends.forM (fun _ l => Adding start m first n k l) adding ?_
  intro done e rest same l adding
  have mem : e ∈ m.exports := by simp [same]
  obtain ⟨inst, found, -, -⟩ := adding.counts
  apply Ends.step (inst_eq found)
  cases there : (inst.addresses e.kind)[e.index.toNat]? with
  | none => exact adding.hindered found (.exportIndex mem there)
  | some addr =>
      refine Ends.of_ok rfl ?_
      refine adding.withStore (.export mem found there) (adding.counts.modify ?_ rfl)
      exact fun inst elems datas => ⟨elems, datas⟩

/-! ## Segments -/

theorem applyElement_reached {i : Nat} {e : Element}
    (reached : Reached start m first (.element i) l) (listed : m.elements[i]? = some e)
    (counts : l.machine.store.Counts start.machine.store.instances.size m.elements.length k) :
    Ends (applyElement start.machine.store.instances.size i e) l
      (fun _ l' => Reached start m first (.element (i + 1)) l' ∧
        l'.machine.store.instances = l.machine.store.instances)
      (Hindered start m first) := by
  obtain ⟨inst, found, elems, -⟩ := counts
  have inside : i < inst.elems.size := by
    rw [elems]
    exact (List.getElem?_eq_some_iff.mp listed).1
  have held : inst.elems[i]? = some inst.elems[i] := Array.getElem?_eq_getElem inside
  have applied : ∀ {s}, l.machine.store.AppliesElement inst e inst.elems[i] s →
      Reached start m first (.element (i + 1)) (l.withStore s) ∧
        s.instances = l.machine.store.instances := fun applies =>
    ⟨reached.withStore (.element reached.made listed found held applies), applies.instances⟩
  have hindered : ∀ {e'}, Store.Obstacle m inst l.machine.store (.element i) e' →
      Hindered start m first (.failed e') l := fun obstacle => ⟨_, inst, reached, found, obstacle⟩
  unfold applyElement
  apply Ends.step (inst_eq found)
  simp only [held, Option.getD_some]
  split
  · next active =>
      cases target : inst.tables[e.table.toNat]? with
      | none => exact hindered (.elementTable listed active target)
      | some table =>
          apply Ends.step rfl
          cases ran : l.machine.store.offset inst e.offset with
          | error problem => exact Ends.stop rfl (hindered (.elementOffset listed active ran))
          | ok offset =>
              apply Ends.step rfl
              apply Ends.step rfl
              apply Ends.step rfl
              split
              · next short =>
                  exact Ends.stop rfl
                    (hindered (.elementBounds listed active held target ran short))
              · next fits =>
                  exact Ends.of_ok rfl (applied (.active active target ran (Nat.not_lt.mp fits)))
  · next declarative => exact Ends.of_ok rfl (applied (.declarative declarative))
  · next other other' => exact Ends.pure (applied (.passive other other'))

theorem applyData_reached {i : Nat} {d : DataSegment}
    (reached : Reached start m first (.data i) l) (listed : m.data[i]? = some d)
    (counts : l.machine.store.Counts start.machine.store.instances.size n m.data.length) :
    Ends (applyData start.machine.store.instances.size i d) l
      (fun _ l' => Reached start m first (.data (i + 1)) l' ∧
        l'.machine.store.instances = l.machine.store.instances)
      (Hindered start m first) := by
  obtain ⟨inst, found, -, datas⟩ := counts
  have inside : i < inst.datas.size := by
    rw [datas]
    exact (List.getElem?_eq_some_iff.mp listed).1
  have held : inst.datas[i]? = some inst.datas[i] := Array.getElem?_eq_getElem inside
  have applied : ∀ {s}, l.machine.store.AppliesData inst d inst.datas[i] s →
      Reached start m first (.data (i + 1)) (l.withStore s) ∧
        s.instances = l.machine.store.instances := fun applies =>
    ⟨reached.withStore (.data reached.made listed found held applies), applies.instances⟩
  have hindered : ∀ {e'}, Store.Obstacle m inst l.machine.store (.data i) e' →
      Hindered start m first (.failed e') l := fun obstacle => ⟨_, inst, reached, found, obstacle⟩
  unfold applyData
  split
  · next active =>
      apply Ends.step (inst_eq found)
      simp only [held, Option.getD_some]
      cases target : inst.memories[d.memory.toNat]? with
      | none => exact hindered (.dataMemory listed active target)
      | some memory =>
          apply Ends.step rfl
          cases ran : l.machine.store.offset inst d.offset with
          | error problem => exact Ends.stop rfl (hindered (.dataOffset listed active ran))
          | ok offset =>
              apply Ends.step rfl
              apply Ends.step rfl
              apply Ends.step rfl
              split
              · next short =>
                  exact Ends.stop rfl (hindered (.dataBounds listed active held target ran short))
              · next fits =>
                  exact Ends.of_ok rfl (applied (.active active target ran (Nat.not_lt.mp fits)))
  · next passive => exact Ends.pure (applied (.passive passive))

/-- Segments are applied one after the other, each from the stage that is its own to the
next one. The new instance stays as it is meanwhile. -/
theorem forEach_reached {α : Type} {items : List α} {action : Nat → α → Link Unit}
    (stageOf : Nat → Stage) (reached : Reached start m first (stageOf 0) l)
    (found : l.machine.store.instances[start.machine.store.instances.size]? = some inst)
    (each : ∀ i item l, items[i]? = some item → Reached start m first (stageOf i) l →
      l.machine.store.instances[start.machine.store.instances.size]? = some inst →
      Ends (action i item) l
        (fun _ l' => Reached start m first (stageOf (i + 1)) l' ∧
          l'.machine.store.instances = l.machine.store.instances)
        (Hindered start m first)) :
    Ends (forEach items action) l
      (fun _ l' => Reached start m first (stageOf items.length) l' ∧
        l'.machine.store.instances[start.machine.store.instances.size]? = some inst)
      (Hindered start m first) := by
  refine forEach_ends (fun done l => Reached start m first (stageOf done.length) l ∧
    l.machine.store.instances[start.machine.store.instances.size]? = some inst)
    ⟨reached, found⟩ ?_
  rintro done item rest same l ⟨reached, found⟩
  refine Ends.mono (each done.length item l (by simp [same]) reached found) ?_ fun _ _ => id
  rintro _ l' ⟨reached, kept⟩
  rw [List.length_append, kept]
  exact ⟨reached, found⟩

/-! ## The start function -/

/-- What stands for a start function that stopped. -/
def startStop (index : UInt32) (stop : Stop) : LinkStop :=
  match stop.fault? with
  | some fault => .failed (.startFailed index fault)
  | none => .outOfFuel

/-- The start function has returned, or there is none. -/
inductive Started (fuel : Nat) (m : Module) (inst : ModuleInstance) (l : Linker) : Linker → Prop
  | none : m.start = none → Started fuel m inst l l
  | returned {index : UInt32} {addr : Addr} {results : List Value} {machine : Machine} :
      m.start = some index → inst.funcs[index.toNat]? = some addr →
      Run.invoke fuel addr [] l.machine = .ok results machine →
      Started fuel m inst l ⟨machine, l.registry⟩

/-- The start function has stopped. -/
inductive Crashed (fuel : Nat) (m : Module) (inst : ModuleInstance) (l : Linker) :
    LinkStop → Linker → Prop
  | intro {index : UInt32} {addr : Addr} {stop : Stop} {machine : Machine} :
      m.start = some index → inst.funcs[index.toNat]? = some addr →
      Run.invoke fuel addr [] l.machine = .error stop machine →
      Crashed fuel m inst l (startStop index stop) ⟨machine, l.registry⟩

theorem runStart_reached (reached : Reached start m first .start l)
    (found : l.machine.store.instances[start.machine.store.instances.size]? = some inst)
    (fuel : Nat) :
    Ends (runStart fuel start.machine.store.instances.size m) l
      (fun _ l' => Started fuel m inst l l')
      (fun stop l' => Hindered start m first stop l' ∨ Crashed fuel m inst l stop l') := by
  unfold runStart
  split
  · next index started =>
      apply Ends.step (inst_eq found)
      cases there : inst.funcs[index.toNat]? with
      | none => exact .inl ⟨_, inst, reached, found, .startIndex started there⟩
      | some addr =>
          refine Ends.discard ?_
          unfold Ends onMachine
          cases ran : Run.invoke fuel addr [] l.machine with
          | ok results machine =>
              simp only [ran]
              exact .returned started there ran
          | error stop machine =>
              simp only [ran]
              exact .inr (.intro started there ran)
  · next unstarted => exact Ends.pure (.none (Option.eq_none_iff_forall_ne_some.mpr unstarted))

/-! ## All stages -/

/-- How an instantiation ends well: its course was followed to the start function, which has
returned, and the instance has its name if it is to have one. -/
def Completed (fuel : Nat) (m : Module) (name : String) (start : Linker) (id : InstanceId)
    (l' : Linker) : Prop :=
  ∃ externs inst l₁ l₂, start.resolve m = .ok externs ∧
    Reached start m (.fresh m name externs) .start l₁ ∧
    l₁.machine.store.instances[id]? = some inst ∧ Started fuel m inst l₁ l₂ ∧
    id = start.machine.store.instances.size ∧
    l' = if name ≠ "" then l₂.register name id else l₂

/-- How an instantiation stops: an import does not resolve, something is in the way of a
stage, or the start function stops. -/
inductive Stopped (fuel : Nat) (m : Module) (name : String) (start : Linker) :
    LinkStop → Linker → Prop
  | unresolved {e : LinkError} :
      start.resolve m = .error e → Stopped fuel m name start (.failed e) start
  | hindered {externs : List Extern} {stop : LinkStop} {l : Linker} :
      start.resolve m = .ok externs → Hindered start m (.fresh m name externs) stop l →
      Stopped fuel m name start stop l
  | crashed {externs : List Extern} {inst : ModuleInstance} {stop : LinkStop} {l l' : Linker} :
      start.resolve m = .ok externs → Reached start m (.fresh m name externs) .start l →
      l.machine.store.instances[start.machine.store.instances.size]? = some inst →
      Crashed fuel m inst l stop l' → Stopped fuel m name start stop l'

/-- The fresh instance has no segments yet. -/
theorem adding_fresh (m : Module) (name : String) (externs : List Extern) (start : Linker) :
    Adding start m (.fresh m name externs) 0 0
      (start.withStore (start.machine.store.addInstance (.fresh m name externs)).2) := by
  refine ⟨⟨.fresh, rfl⟩, .fresh m name externs, Array.getElem?_push_size, ?_⟩
  rw [ModuleInstance.fresh, ModuleInstance.elems_foldl_addAddress,
    ModuleInstance.datas_foldl_addAddress]
  exact ⟨rfl, rfl⟩

/-- Whatever the module is, its instantiation follows the course, to its end or up to where
it stops. -/
theorem instantiate_course (fuel : Nat) (m : Module) (name : String) (start : Linker) :
    Ends (instantiate fuel m name) start (Completed fuel m name start)
      (Stopped fuel m name start) := by
  unfold instantiate
  apply Ends.step rfl
  cases resolved : start.resolve m with
  | error e => exact Ends.stop rfl (.unresolved resolved)
  | ok externs =>
      apply Ends.step rfl
      apply Ends.step rfl
      have adding := adding_fresh m name externs start
      have hindered : ∀ stop l, Hindered start m (.fresh m name externs) stop l →
          Stopped fuel m name start stop l := fun stop l => .hindered resolved
      refine Ends.bind (Ends.mono (addFuncs_adding adding) (fun _ _ => id) hindered)
        fun _ l adding => ?_
      refine Ends.bind (addTablesAndMemories_adding adding) fun _ l adding => ?_
      refine Ends.bind (Ends.mono (addGlobals_adding adding) (fun _ _ => id) hindered)
        fun _ l adding => ?_
      refine Ends.bind (Ends.mono (addSegments_adding adding) (fun _ _ => id) hindered)
        fun _ l adding => ?_
      refine Ends.bind (Ends.mono (bindExports_adding adding) (fun _ _ => id) hindered)
        fun _ l adding => ?_
      obtain ⟨reached, counts⟩ := adding
      obtain ⟨inst, found, elems, datas⟩ := counts
      have reached : Reached start m (.fresh m name externs) (.element 0) l :=
        reached.withStore (.defined reached.made found elems datas)
      refine Ends.bind (Ends.mono (forEach_reached .element reached found
        fun _ _ _ listed reached found => applyElement_reached reached listed
          ⟨inst, found, elems, datas⟩) (fun _ _ => id) hindered) ?_
      rintro _ l ⟨reached, found⟩
      have reached : Reached start m (.fresh m name externs) (.data 0) l :=
        reached.withStore (.elements reached.made)
      refine Ends.bind (Ends.mono (forEach_reached .data reached found
        fun _ _ _ listed reached found => applyData_reached reached listed
          ⟨inst, found, elems, datas⟩) (fun _ _ => id) hindered) ?_
      rintro _ l ⟨reached, found⟩
      have reached : Reached start m (.fresh m name externs) .start l :=
        reached.withStore (.datas reached.made)
      refine Ends.bind (Ends.mono (runStart_reached reached found fuel) (fun _ _ => id) ?_)
        fun _ l₂ started => ?_
      · rintro stop l' (inTheWay | crashed)
        · exact hindered stop l' inTheWay
        · exact .crashed resolved reached found crashed
      · have completed : ∀ l', l' = (if name ≠ "" then
            l₂.register name start.machine.store.instances.size else l₂) →
            Completed fuel m name start start.machine.store.instances.size l' := fun l' same =>
          ⟨externs, inst, l, l₂, resolved, reached, found, started, rfl, same⟩
        split
        · next named => exact Ends.of_ok rfl (completed _ (if_pos named).symm)
        · next named => exact Ends.of_ok rfl (completed _ (if_neg named).symm)

end Link

end WasmMachine
