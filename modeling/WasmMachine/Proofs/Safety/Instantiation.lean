/-
# Instantiating checked modules

The stages of instantiation one after the other.  Once the imports of a checked module
are resolved, adding its definitions cannot fail, and the store is ready again when all
have been added.  The stages that follow may fail at any point; what they do to the store
keeps its shape, and with it everything that code relies on.
-/

import WasmMachine.Proofs.Safety.Allocation
import WasmMachine.Proofs.Safety.Execution

namespace WasmMachine

open Typing

namespace Link

variable {id : InstanceId} {Inv : List Code → Context → Store → Prop} {codes : List Code}
  {ctx : Context} {l : Linker} {m : Module} {Bad : LinkStop → Linker → Prop}

/-- The items of a list are dealt with in order, each with its index. -/
theorem forEach_ends {α : Type} {items : List α} {action : Nat → α → Link Unit}
    (Inv : List α → Linker → Prop) (start : Inv [] l)
    (each_ends : ∀ done item rest, items = done ++ item :: rest → ∀ l, Inv done l →
      Ends (action done.length item) l (fun _ l' => Inv (done ++ [item]) l') Bad) :
    Ends (forEach items action) l (fun _ l' => Inv items l') Bad := by
  have ends : Ends (forEach items action) l (fun _ l' => Inv (items.zipIdx.map Prod.fst) l') Bad := by
    unfold forEach
    refine Ends.forM (fun done l => Inv (done.map Prod.fst) l) start ?_
    rintro done ⟨item, i⟩ rest same l holds
    obtain ⟨before, after, rfl, rfl, tail⟩ := List.zipIdx_eq_append_iff.mp same
    obtain ⟨a, later, rfl, here, -⟩ := List.zipIdx_eq_cons_iff.mp tail.symm
    cases here
    rw [List.zipIdx_map_fst] at holds
    have ends := each_ends before item later rfl l holds
    rw [List.map_append, List.zipIdx_map_fst, Nat.zero_add]
    exact ends
  rw [List.zipIdx_map_fst] at ends
  exact ends

/-! ## Adding definitions -/

/-- A function declaration and its body as code. -/
def codeOf (id : InstanceId) (types : List FuncType) (f : UInt32 × FuncBody) : Code :=
  ⟨some id, typeAt types f.1, f.2.localTypes, f.2.body⟩

theorem addFuncs_ends (upkeep : Store.Upkeep id Inv) (checked : m.Checked)
    (inv : Inv [] ctx l.machine.store) :
    Ends (addFuncs id m) l
      (fun _ l' => Inv ((m.funcs.zip m.code).map (codeOf id m.types))
        { ctx with funcs := ctx.funcs ++ m.funcs.map (typeAt m.types) } l'.machine.store) Bad := by
  unfold addFuncs
  rw [if_neg (not_not.mpr checked.bodies)]
  refine Ends.mono (forEach_ends (fun done l => Inv (done.map (codeOf id m.types))
      { ctx with funcs := ctx.funcs ++ done.map fun f => typeAt m.types f.1 } l.machine.store)
    ?_ ?_) ?_ fun _ _ stopped => stopped
  · rw [List.map_nil, List.map_nil, List.append_nil]
    exact inv
  · rintro done ⟨index, body⟩ rest same l inv
    have mem : (index, body) ∈ m.funcs.zip m.code := by simp [same]
    have inside := checked.funcs index (List.of_mem_zip mem).1
    have known := List.getElem?_eq_getElem inside
    simp only [known]
    refine Ends.of_ok rfl ?_
    have added := upkeep.addFunc inv (codeOf id m.types (index, body))
    rw [List.map_append, List.map_append, ← List.append_assoc]
    have type : typeAt m.types index = m.types[index.toNat] := by
      rw [typeAt, known, Option.getD_some]
    rw [← type]
    exact added
  · intro _ l inv
    have names : m.funcs = (m.funcs.zip m.code).map Prod.fst :=
      (List.map_fst_zip (Nat.le_of_eq checked.bodies)).symm
    rw [names, List.map_map, ← names]
    exact inv

theorem addTablesAndMemories_ends (upkeep : Store.Upkeep id Inv)
    (inv : Inv codes ctx l.machine.store) :
    Ends (addTablesAndMemories id m) l
      (fun _ l' => Inv codes
        { ctx with tables := ctx.tables ++ m.tables, memories := ctx.memories ++ m.memories }
        l'.machine.store) Bad := by
  unfold addTablesAndMemories
  refine Ends.bind (Ends.forM (fun done (l : Linker) => Inv codes
      { ctx with tables := ctx.tables ++ done } l.machine.store) ?_ ?_) fun _ l inv => ?_
  · rw [List.append_nil]
    exact inv
  · intro done t rest _ l inv
    refine Ends.of_ok rfl ?_
    rw [← List.append_assoc]
    exact upkeep.addTable inv t
  · refine Ends.forM (fun done (l : Linker) => Inv codes
      { ctx with tables := ctx.tables ++ m.tables, memories := ctx.memories ++ done }
      l.machine.store) ?_ ?_
    · rw [List.append_nil]
      exact inv
    · intro done t rest _ l inv
      refine Ends.of_ok rfl ?_
      rw [← List.append_assoc]
      exact upkeep.addMemory inv t

/-- The context of a module has the imports in front of the definitions. -/
theorem funcs_ofModule (m : Module) : (Context.ofModule m).funcs =
    (Context.ofImports m.types m.imports).funcs ++ m.funcs.map (typeAt m.types) :=
  List.map_append

theorem length_funcs_ofImports (types : List FuncType) (imports : List Import) :
    (Context.ofImports types imports).funcs.length =
      imports.countP fun i => i.desc.kind == .func := by
  simp [Context.ofImports, List.countP_eq_length_filter]

theorem length_funcs_ofModule (m : Module) : (Context.ofModule m).funcs.length = m.funcCount := by
  rw [funcs_ofModule, List.length_append, length_funcs_ofImports, List.length_map]
  rfl

/-- Imports that say what they ask for have places in the index space of their kind. -/
theorem length_filterMap_imports {α : Type} {imports : List Import} {kind : ExternKind}
    {part : ImportDesc → Option α}
    (there : ∀ i ∈ imports, i.desc.kind = kind → (part i.desc).isSome) :
    (imports.filterMap fun i => if i.desc.kind == kind then part i.desc else none).length =
      imports.countP fun i => i.desc.kind == kind := by
  rw [List.length_filterMap_eq_countP]
  refine List.countP_congr fun i mem => ?_
  by_cases same : i.desc.kind = kind
  · simp [same, there i mem same]
  · simp [same]

/-- Every imported global has a place in the index space. -/
theorem length_globals_ofImports {imports : List Import}
    (writable : ∀ i ∈ imports, i.desc.Writable) (types : List FuncType) :
    (Context.ofImports types imports).globals.length =
      imports.countP fun i => i.desc.kind == .global := by
  refine length_filterMap_imports fun i mem same => ?_
  have desc := writable i mem
  obtain ⟨mod, name, desc⟩ := i
  cases desc with
  | global _ => rfl
  | _ => cases same

/-- The first value of a global is computed in front of it. -/
theorem addGlobals_ends (upkeep : Store.Upkeep id Inv) (checked : m.Checked)
    (inv : Inv codes ctx l.machine.store) (funcs : ctx.funcs = (Context.ofModule m).funcs)
    (globals : ctx.globals = (Context.ofImports m.types m.imports).globals) :
    Ends (addGlobals id m) l
      (fun _ l' => Inv codes { ctx with globals := ctx.globals ++ m.globals.map (·.type) }
        l'.machine.store) Bad := by
  unfold addGlobals
  refine forEach_ends (fun (done : List Global) l => Inv codes
    { ctx with globals := ctx.globals ++ done.map (·.type) } l.machine.store) ?_ ?_
  · rw [List.map_nil, List.append_nil]
    exact inv
  · intro done g rest same l inv
    obtain ⟨-, wellFormed, typed⟩ := checked.globals g (by simp [same])
    obtain ⟨inst, found, serves⟩ := upkeep.serving inv
    have offers : l.machine.store.shape.Offers inst (.ofModule m) (m.importCount .global) := by
      refine ⟨funcs ▸ serves.funcs, fun i type early known => ?_⟩
      apply serves.globals.lookup
      have imported : i < ctx.globals.length := by
        rw [globals, length_globals_ofImports checked.imports]
        exact early
      have known : (ctx.globals ++ m.globals.map (·.type))[i]? = some type := globals ▸ known
      rw [List.getElem?_append_left imported] at known ⊢
      exact known
    obtain ⟨v, ran, gives⟩ := Store.constant_gives offers wellFormed typed
    obtain ⟨n, has⟩ := upkeep.has inv gives
    apply Ends.step rfl
    apply Ends.step rfl
    rw [found, Option.getD_some, ran]
    apply Ends.step rfl
    rw [if_neg (not_not.mpr has.type)]
    refine Ends.of_ok rfl ?_
    rw [List.map_append, ← List.append_assoc]
    exact upkeep.addGlobal inv gives

/-- The references of a segment are what constant expressions of its type give. -/
theorem elementRefs_ends (upkeep : Store.Upkeep id Inv) {inst : ModuleInstance} {e : Element}
    (checked : m.Checked) (mem : e ∈ m.elements) (inv : Inv codes ctx l.machine.store)
    (found : l.machine.store.instances[id]? = some inst)
    (offers : l.machine.store.shape.Offers inst (.ofModule m)
      (Context.ofModule m).globals.length) :
    Ends (elementRefs id e) l
      (fun refs l' => (∀ r ∈ refs, l.machine.store.Gives e.type (.ref r)) ∧ l' = l) Bad := by
  have entries := checked.entries e mem
  have funcs := checked.elementFuncs e mem
  have exprs := checked.elementExprs e mem
  obtain ⟨mode, flags, table, type, offset, funcs?, exprs?⟩ := e
  unfold elementRefs
  split
  · refine Ends.mapM ((· = l)) rfl ?_
    rintro index listed _ rfl
    apply Ends.step rfl
    cases entries with
    | funcs _ =>
        have inside : index.toNat < (Context.ofModule m).funcs.length := by
          rw [length_funcs_ofModule]
          exact funcs index listed
        obtain ⟨addr, there, leads⟩ :=
          offers.funcs.lookup (List.getElem?_eq_getElem inside)
        obtain ⟨held, -⟩ := List.getElem?_eq_some_iff.mp leads
        rw [List.length_map] at held
        rw [found, Option.getD_some]
        simp only [there]
        exact Ends.pure ⟨.value ⟨rfl, held⟩, rfl⟩
    | exprs _ _ _ => cases listed
  · next filled =>
      refine Ends.mapM ((· = l)) rfl ?_
      rintro expr listed _ rfl
      have wellFormed : Instruction.allWellFormed expr ∧ type.isRef := by
        cases entries with
        | funcs _ => cases listed
        | exprs reference _ writable => exact ⟨(writable expr listed).wellFormed, reference⟩
      obtain ⟨v, ran, gives⟩ := Store.constant_gives offers wellFormed.1 (exprs expr listed)
      obtain ⟨n, has⟩ := upkeep.has inv gives
      obtain ⟨r, rfl, -, -⟩ := has.eq_ref wellFormed.2
      apply Ends.step rfl
      apply Ends.step rfl
      rw [found, Option.getD_some, ran]
      apply Ends.step rfl
      exact Ends.pure ⟨gives, rfl⟩

theorem addSegments_ends (upkeep : Store.Upkeep id Inv) (checked : m.Checked)
    (inv : Inv codes ctx l.machine.store) (funcs : ctx.funcs = (Context.ofModule m).funcs)
    (globals : ctx.globals = (Context.ofModule m).globals) :
    Ends (addSegments id m) l
      (fun _ l' => Inv codes
        { ctx with
          elements := ctx.elements ++ m.elements.map (·.type)
          dataCount := ctx.dataCount + m.data.length } l'.machine.store) Bad := by
  unfold addSegments
  refine Ends.bind (Ends.forM (fun (done : List Element) (l : Linker) => Inv codes
      { ctx with elements := ctx.elements ++ done.map (·.type) } l.machine.store) ?_ ?_)
    fun _ l inv => ?_
  · rw [List.map_nil, List.append_nil]
    exact inv
  · intro done e rest same l inv
    obtain ⟨inst, found, serves⟩ := upkeep.serving inv
    have offers : l.machine.store.shape.Offers inst (.ofModule m)
        (Context.ofModule m).globals.length := by
      refine ⟨funcs ▸ serves.funcs, fun i type _ known => serves.globals.lookup ?_⟩
      exact globals ▸ known
    refine Ends.bind (elementRefs_ends upkeep checked (by simp [same]) inv found offers) ?_
    rintro refs _ ⟨gives, rfl⟩
    refine Ends.of_ok rfl ?_
    rw [List.map_append, ← List.append_assoc]
    exact upkeep.addElem inv gives
  · refine Ends.forM (fun (done : List DataSegment) (l : Linker) => Inv codes
        { ctx with
          elements := ctx.elements ++ m.elements.map (·.type)
          dataCount := ctx.dataCount + done.length } l.machine.store) inv ?_
    intro done d rest _ l inv
    refine Ends.of_ok rfl ?_
    rw [List.length_append, ← Nat.add_assoc]
    exact upkeep.addData inv d.init

/-- Behind the imports all definitions of a checked module are added, and the new instance
serves the context of the module. -/
theorem definitions_end {α : Type} {rest : PUnit → Link α} {Good : α → Linker → Prop}
    (upkeep : Store.Upkeep id Inv) (checked : m.Checked)
    (inv : Inv [] (.ofImports m.types m.imports) l.machine.store)
    (ends : ∀ l' : Linker,
      Inv ((m.funcs.zip m.code).map (codeOf id m.types)) (.ofModule m) l'.machine.store →
      Ends (rest ⟨⟩) l' Good Bad) :
    Ends (addFuncs id m >>= fun _ => addTablesAndMemories id m >>= fun _ =>
      addGlobals id m >>= fun _ => addSegments id m >>= rest) l Good Bad := by
  refine Ends.bind (addFuncs_ends upkeep checked inv) fun _ l₁ inv => ?_
  refine Ends.bind (addTablesAndMemories_ends upkeep inv) fun _ l₂ inv => ?_
  refine Ends.bind (addGlobals_ends upkeep checked inv (funcs_ofModule m).symm rfl)
    fun _ l₃ inv => ?_
  refine Ends.bind (addSegments_ends upkeep checked inv (funcs_ofModule m).symm rfl)
    fun _ l₄ inv => ?_
  refine ends l₄ (upkeep.serve inv fun inst serves => { serves with
    funcs := funcs_ofModule m ▸ serves.funcs
    datas := ?_ })
  rw [checked.dataCount, ← Nat.zero_add m.data.length]
  exact serves.datas

end Link

/-! ## Allocated modules -/

namespace Store.Growing

variable {s s' : Store} {m : Module}

/-- When all definitions have been added, the code of the module is checked. -/
theorem checked_codeOf {σ : Shape} (checked : m.Checked)
    (growing : s.Growing σ ((m.funcs.zip m.code).map (Link.codeOf σ.instances.length m.types))
      (.ofModule m))
    {f : Code} (mem : f ∈ (m.funcs.zip m.code).map (Link.codeOf σ.instances.length m.types)) :
    ∃ ctx, f.Checked s.shape ctx := by
  obtain ⟨⟨index, body⟩, zipped, rfl⟩ := List.mem_map.mp mem
  obtain ⟨i, place⟩ := List.getElem?_of_mem zipped
  obtain ⟨declared, defined⟩ := List.getElem?_zip_eq_some.mp place
  obtain ⟨wellFormed, valid, type, known, typed⟩ := checked.code i body defined
  obtain rfl : typeAt m.types index = type := by
    have imported : (Context.ofImports m.types m.imports).funcs.length = m.importCount .func :=
      Link.length_funcs_ofImports m.types m.imports
    rw [Link.funcs_ofModule, ← imported, List.getElem?_append_right (Nat.le_add_right _ _),
      Nat.add_sub_cancel_left, List.getElem?_map, declared] at known
    exact Option.some.inj known
  refine ⟨(Context.ofModule m).forFunction (typeAt m.types index) body.localTypes, {
    home := ?_
    known := checked.known_forFunction (Module.known_typeAt checked.types index) valid
    locals := rfl
    results := rfl
    wellFormed := wellFormed
    typed := typed }⟩
  obtain ⟨inst, found, serves⟩ := growing.home
  exact ⟨σ.instances.length, inst, rfl, found, { serves with }⟩

/-- With all definitions of a checked module added, a store that was ready is so again. -/
theorem ready (before : s.Ready) (checked : m.Checked)
    (growing : s'.Growing s.shape
      ((m.funcs.zip m.code).map (Link.codeOf s.shape.instances.length m.types)) (.ofModule m)) :
    s'.Ready := by
  apply before.grow growing.within growing.typed
  intro f mem
  rw [growing.funcs] at mem
  rcases List.mem_append.mp mem with old | new
  · exact .inl old
  · obtain ⟨g, mem, same⟩ := List.mem_map.mp new
    cases same
    exact .inr (growing.checked_codeOf checked mem)

end Store.Growing

/-! ## Later stages -/

namespace Link

variable {σ : Shape} {id : InstanceId} {inst : ModuleInstance} {l : Linker} {m : Module}

/-- A stage that stops with a failure has kept the store as code relies on it. -/
def Keeps (σ : Shape) : LinkStop → Linker → Prop
  | .failed _, l => l.machine.store.Of σ
  | .outOfFuel, _ => True

/-- The instance at a place serves the context of a module. -/
def Served (σ : Shape) (id : InstanceId) (m : Module) : Prop :=
  ∃ inst, σ.instances[id]? = some inst ∧ σ.Serves inst (.ofModule m)

theorem fail_keeps {α : Type} {Good : α → Linker → Prop} {e : LinkError}
    (of : l.machine.store.Of σ) : Ends (fail e) l Good (Keeps σ) := of

theorem liftConstant_keeps {α : Type} {x : Except ConstantProblem α}
    (of : l.machine.store.Of σ) : Ends (liftConstant x) l (fun _ l' => l' = l) (Keeps σ) := by
  cases x with
  | ok a => exact rfl
  | error problem => exact of

theorem bindExports_keeps (of : l.machine.store.Of σ) :
    Ends (bindExports id m) l (fun _ l' => l'.machine.store.Of σ) (Keeps σ) := by
  refine Ends.forM (fun _ (l : Linker) => l.machine.store.Of σ) of ?_
  intro done e rest _ l of
  apply Ends.step rfl
  split
  · exact of.modifyInstance id fun _ => rfl
  · exact fail_keeps of

/-- The instance that is being made, in a store of a shape that has it. -/
theorem inst_served (shape : l.machine.store.shape = σ) (served : Served σ id m) :
    ∃ inst, Link.inst id l = .ok inst l ∧ σ.Serves inst (.ofModule m) := by
  subst shape
  obtain ⟨inst, found, serves⟩ := Store.Serving.of_home served
  refine ⟨inst, ?_, serves⟩
  show EStateM.Result.ok (l.machine.store.instances[id]?.getD {}) l = _
  rw [found, Option.getD_some]

theorem applyElement_keeps {i : Nat} {e : Element} (checked : m.Checked)
    (served : Served σ id m) (known : m.elements[i]? = some e) (of : l.machine.store.Of σ) :
    Ends (applyElement id i e) l (fun _ l' => l'.machine.store.Of σ) (Keeps σ) := by
  obtain ⟨inst, ran, serves⟩ := inst_served of.shape served
  have listed : (Context.ofModule m).elements[i]? = some e.type := by
    show (m.elements.map (·.type))[i]? = _
    rw [List.getElem?_map, known]
    rfl
  obtain ⟨segment, place, leads⟩ := serves.elems.lookup listed
  unfold applyElement
  apply Ends.step ran
  simp only [place, Option.getD_some]
  split
  · next active =>
      obtain ⟨table, target, same⟩ := checked.elementTables e (List.mem_of_getElem? known) active
      have target : ((Context.ofModule m).tables.map (·.elem))[e.table.toNat]? = some e.type := by
        rw [List.getElem?_map, target, ← same]
        rfl
      obtain ⟨addr, there, held⟩ := serves.tables.lookup target
      obtain ⟨own, found, is⟩ := of.elem leads
      simp only [there]
      apply Ends.step rfl
      refine Ends.bind (liftConstant_keeps of) ?_
      rintro offset _ rfl
      apply Ends.step rfl
      apply Ends.step rfl
      simp only [found, Option.map_some, Option.getD_some]
      split
      · exact Ends.stop rfl of
      · refine Ends.of_ok rfl ?_
        refine (of.writeTable held offset.toNat fun r mem => ?_).dropElem
        rw [← is]
        exact of.typed.elems segment own found r mem
  · exact Ends.of_ok rfl of.dropElem
  · exact Ends.pure of

theorem applyData_keeps {i : Nat} {d : DataSegment} (served : Served σ id m)
    (of : l.machine.store.Of σ) :
    Ends (applyData id i d) l (fun _ l' => l'.machine.store.Of σ) (Keeps σ) := by
  obtain ⟨inst, ran, serves⟩ := inst_served of.shape served
  unfold applyData
  split
  · apply Ends.step ran
    simp only
    split
    · exact fail_keeps of
    · apply Ends.step rfl
      refine Ends.bind (liftConstant_keeps of) ?_
      rintro offset _ rfl
      apply Ends.step rfl
      apply Ends.step rfl
      split
      · exact Ends.stop rfl of
      · refine Ends.of_ok rfl ?_
        exact (of.writeMemory _ _).dropData
  · exact Ends.pure of

theorem runStart_keeps (lawful : σ.Lawful) (fuel : Nat) (of : l.machine.store.Of σ) :
    Ends (runStart fuel id m) l (fun _ l' => l'.machine.store.Of σ) (Keeps σ) := by
  unfold runStart
  split
  · next index _ =>
      apply Ends.step rfl
      split
      · exact fail_keeps of
      · next addr _ =>
          have ends : Ends (Run.invoke fuel addr []) l.machine _ _ :=
            Run.invoke_keeps lawful of addr (fun _ mem => absurd mem List.not_mem_nil) fuel
          refine Ends.discard ?_
          unfold Ends onMachine at *
          cases ran : Run.invoke fuel addr [] l.machine with
          | ok results machine =>
              rw [ran] at ends
              simp only [ran]
              exact ends
          | error stop machine =>
              rw [ran] at ends
              simp only [ran]
              cases stop with
              | outOfFuel => trivial
              | trap t => exact ends nofun
              | refused r => exact ends nofun
  · exact Ends.pure of

/-! ## All stages -/

/-- The place of a new instance is behind the others. -/
theorem add_instance (inst : ModuleInstance) :
    add (·.addInstance inst) l = .ok l.machine.store.shape.instances.length
      { l with machine := { l.machine with store := (l.machine.store.addInstance inst).2 } } := by
  have place : l.machine.store.shape.instances.length = l.machine.store.instances.size := by
    simp [Store.shape]
  rw [place]
  rfl

/-- Instantiating a checked module leaves a store that is ready, whether it succeeds or
fails. -/
theorem instantiate_ends (checked : m.Checked) (ready : l.machine.store.Ready)
    (honest : ∀ f, .host f ∈ l.machine.store.shape.funcs →
      f.Honest (l.machine.store.shape.size + m.funcs.length))
    (fuel : Nat) (name : String) :
    Ends (instantiate fuel m name) l (fun _ l' => l'.machine.store.Ready)
      (fun stop l' => stop ≠ .outOfFuel → l'.machine.store.Ready) := by
  unfold instantiate
  cases resolved : l.resolve m with
  | error e =>
      apply Ends.step rfl
      simp only [resolved]
      exact Ends.stop rfl fun _ => ready
  | ok externs =>
      apply Ends.step rfl
      simp only [resolved]
      apply Ends.step rfl
      have serves := Linker.serves_of_resolve name checked.imports resolved
      apply Ends.step (add_instance _)
      have growing := Store.Growing.of_addInstance ready.typed serves
      refine definitions_end (Store.Growing.upkeep _) checked growing fun l₁ growing => ?_
      have ready := growing.ready ready checked
      have served : Served l₁.machine.store.shape _ m := growing.home
      have lawful : l₁.machine.store.shape.Lawful := by
        refine ready.lawful fun f mem => ?_
        have size : l₁.machine.store.shape.size =
            l.machine.store.shape.size + m.funcs.length := by
          simp [Shape.size, growing.funcs, checked.bodies]
        rw [size]
        rw [growing.funcs] at mem
        rcases List.mem_append.mp mem with old | new
        · exact honest f old
        · obtain ⟨g, -, same⟩ := List.mem_map.mp new
          cases same
      refine Ends.mono (?_ : Ends _ l₁ (fun _ l' => l'.machine.store.Of l₁.machine.store.shape)
        (Keeps l₁.machine.store.shape)) (fun _ _ of => ready.of_shape of) ?_
      · refine Ends.bind (bindExports_keeps ready.of) fun _ l₂ of => ?_
        refine Ends.bind (forEach_ends (fun _ l => l.machine.store.Of _) of ?_)
          fun _ l₃ of => ?_
        · intro done e rest same l of
          exact applyElement_keeps checked served (by simp [same]) of
        refine Ends.bind (forEach_ends (fun _ l => l.machine.store.Of _) of ?_)
          fun _ l₄ of => ?_
        · intro done d rest same l of
          exact applyData_keeps served of
        refine Ends.bind (runStart_keeps lawful fuel of) fun _ l₅ of => ?_
        split
        · exact Ends.of_ok rfl of
        · exact Ends.of_ok rfl of
      · intro stop l' kept fueled
        cases stop with
        | failed e => exact ready.of_shape kept
        | outOfFuel => exact absurd rfl fueled

end Link

end WasmMachine
