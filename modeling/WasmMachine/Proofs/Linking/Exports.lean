/-
# What an instance exports

The export names of a module that was accepted are distinct, so none of its exports hides
another.  Its instance exports under each name what the module says, at the address that
the instance has for the index, and nothing under any other name.  What happens behind the
exports, segments that are applied and a start function that runs, leaves them alone.
-/

import WasmMachine.Proofs.Evolution.Operations
import WasmMachine.Proofs.Linking.Failures

namespace WasmMachine

open Typing

/-! ## Entries by name -/

theorem lookup_entry {α : Type} (name other : String) (e : α) (rest : List (String × α)) :
    ((name, e) :: rest).lookup other = if other = name then some e else rest.lookup other := by
  by_cases same : other = name
  · rw [if_pos same, same, List.lookup_cons_self]
  · rw [if_neg same, List.lookup_cons, beq_false_of_ne same]

theorem lookup_replaced {α : Type} (entries : List (String × α)) (name other : String) (e : α) :
    ((entries.filter fun old => old.1 != name) ++ [(name, e)]).lookup other =
      if other = name then some e else entries.lookup other := by
  induction entries with
  | nil => exact lookup_entry name other e []
  | cons entry rest ih =>
      obtain ⟨key, old⟩ := entry
      by_cases replaced : key = name
      · rw [List.filter_cons_of_neg (by simp [replaced]), ih, replaced, lookup_entry]
        by_cases same : other = name
        · rw [if_pos same, if_pos same]
        · rw [if_neg same, if_neg same, if_neg same]
      · rw [List.filter_cons_of_pos (by simp [replaced]), List.cons_append, lookup_entry,
          lookup_entry, ih]
        by_cases here : other = key
        · rw [here, if_pos rfl, if_neg replaced, if_pos rfl]
        · rw [if_neg here, if_neg here]

namespace ModuleInstance

variable {inst : ModuleInstance}

/-- The instance exports what a list of exports says, and nothing else. -/
def Exporting (inst : ModuleInstance) (exports : List Export) : Prop :=
  ∀ name found, inst.export? name = some found ↔
    ∃ e ∈ exports, e.name = name ∧ e.kind = found.kind ∧
      (inst.addresses e.kind)[e.index.toNat]? = some found.addr

theorem exports_foldl_addAddress (inst : ModuleInstance) (externs : List Extern) :
    (externs.foldl addAddress inst).exports = inst.exports :=
  List.foldlRecOn (motive := fun made => made.exports = inst.exports) externs addAddress rfl
    fun made same e _ => (made.exports_addAddress e).trans same

theorem Exporting.nil (blank : inst.exports = []) : inst.Exporting [] := by
  intro name found
  simp [export?, blank]

theorem export?_addExport (inst : ModuleInstance) (name other : String) (e : Extern) :
    (inst.addExport name e).export? other = if other = name then some e else inst.export? other :=
  lookup_replaced inst.exports name other e

/-- An export under a new name is one more. -/
theorem Exporting.addExport {done : List Export} (exporting : inst.Exporting done) {e : Export}
    {addr : Addr} (new : ∀ old ∈ done, old.name ≠ e.name)
    (there : (inst.addresses e.kind)[e.index.toNat]? = some addr) :
    (inst.addExport e.name ⟨e.kind, addr⟩).Exporting (done ++ [e]) := by
  intro name found
  simp only [export?_addExport, addresses_addExport, List.mem_append, List.mem_singleton]
  by_cases same : name = e.name
  · subst same
    rw [if_pos rfl]
    constructor
    · intro is
      cases is
      exact ⟨e, .inr rfl, rfl, rfl, there⟩
    · rintro ⟨e', mem | rfl, name, kind, place⟩
      · exact absurd name (new e' mem)
      · obtain ⟨kind', addr'⟩ := found
        obtain rfl : e'.kind = kind' := kind
        rw [there] at place
        cases place
        rfl
  · rw [if_neg same, exporting name found]
    constructor
    · rintro ⟨e', mem, rest⟩
      exact ⟨e', .inl mem, rest⟩
    · rintro ⟨e', mem | rfl, name', rest⟩
      · exact ⟨e', mem, name', rest⟩
      · exact absurd name'.symm same

theorem exportedFunc?_eq_some_iff {name : String} {addr : Addr} :
    inst.exportedFunc? name = some addr ↔ inst.export? name = some ⟨.func, addr⟩ := by
  unfold exportedFunc?
  cases inst.export? name with
  | none => simp
  | some found =>
      obtain ⟨kind, addr'⟩ := found
      by_cases func : kind = .func
      · simp [func]
      · simp [func]

/-- An exported function stands at an index of a function that is exported. -/
theorem Exporting.exportedFunc?_eq_some_iff {exports : List Export}
    (exporting : inst.Exporting exports) {name : String} {addr : Addr} :
    inst.exportedFunc? name = some addr ↔ ∃ e ∈ exports, e.name = name ∧ e.kind = .func ∧
      inst.funcs[e.index.toNat]? = some addr := by
  rw [ModuleInstance.exportedFunc?_eq_some_iff, exporting]
  constructor
  · rintro ⟨e, mem, named, kind, place⟩
    rw [kind] at place
    exact ⟨e, mem, named, kind, place⟩
  · rintro ⟨e, mem, named, kind, place⟩
    refine ⟨e, mem, named, kind, ?_⟩
    rw [kind]
    exact place

end ModuleInstance

namespace Module

variable {m : Module}

/-- No name is exported twice. -/
theorem nodup_of_checkExportNames {u : Unit} (ok : m.checkExportNames = .ok u) :
    (m.exports.map (·.name)).Nodup := by
  rw [List.Nodup, List.pairwise_map, List.pairwise_iff_getElem]
  intro i j _ inside before same
  have listed : (m.exports[j], j) ∈ m.exports.zipIdx :=
    List.mk_mem_zipIdx_iff_getElem?.mpr (List.getElem?_eq_getElem inside)
  have unlike := reject_eq_ok (forM_eq_ok ok _ listed)
  rw [List.any_eq_false] at unlike
  refine unlike m.exports[i] ?_ (beq_iff_eq.mpr same)
  exact List.mem_take_iff_getElem.mpr ⟨i, by omega, rfl⟩

theorem nodup_of_checkStructure (ok : m.checkStructure = .ok ()) :
    (m.exports.map (·.name)).Nodup := by
  obtain ⟨-, -, -, -, -, names, -⟩ := parts_of_checkStructure ok
  exact nodup_of_checkExportNames names

theorem nodup_of_validate (validated : m.validate = .ok ()) : (m.exports.map (·.name)).Nodup :=
  nodup_of_checkStructure (parts_of_validate validated).1

end Module

/-! ## Adding definitions -/

namespace Store

variable {s s' : Store} {id : InstanceId}

/-- The instance at a place exports nothing so far. -/
def Blank (id : InstanceId) (s : Store) : Prop :=
  ∀ inst, s.instances[id]? = some inst → inst.exports = []

theorem Blank.modify (blank : s.Blank id) {f : ModuleInstance → ModuleInstance}
    (same : s'.instances = s.instances) (kept : ∀ inst, (f inst).exports = inst.exports) :
    (s'.modifyInstance id f).Blank id := by
  intro inst found
  unfold modifyInstance at found
  rw [Array.getElem?_modify, if_pos rfl, same] at found
  obtain ⟨inst', found', rfl⟩ := Option.map_eq_some_iff.mp found
  rw [kept]
  exact blank inst' found'

theorem Blank.place (blank : s.Blank id) (e : Extern) (same : s'.instances = s.instances) :
    (s'.place id e).Blank id := blank.modify same (·.exports_addAddress e)

theorem blank_addInstance {inst : ModuleInstance} (blank : inst.exports = []) :
    (s.addInstance inst).2.Blank s.shape.instances.length := by
  intro inst' found
  have place : s.shape.instances.length = s.instances.size := by simp [shape]
  rw [place] at found
  cases Array.getElem?_push_size.symm.trans found
  exact blank

end Store

namespace Link

variable {id : InstanceId} {inst : ModuleInstance} {l : Linker} {m : Module}

/-! ## Binding exports -/

/-- The instance at a place exports what the module says. -/
def Presents (id : InstanceId) (m : Module) (l : Linker) : Prop :=
  ∃ inst, l.machine.store.instances[id]? = some inst ∧ inst.Exporting m.exports

theorem Presents.keep {l' : Linker} (presents : Presents id m l)
    (same : l'.machine.store.instances = l.machine.store.instances) : Presents id m l' := by
  obtain ⟨inst, found, exporting⟩ := presents
  exact ⟨inst, same ▸ found, exporting⟩

theorem bindExports_presents (names : (m.exports.map (·.name)).Nodup)
    (found : l.machine.store.instances[id]? = some inst) (blank : inst.exports = []) :
    Ends (bindExports id m) l (fun _ l' => Presents id m l') fun _ _ => True := by
  unfold bindExports
  refine Ends.forM (fun done (l : Linker) => ∃ inst,
    l.machine.store.instances[id]? = some inst ∧ inst.Exporting done)
    ⟨inst, found, .nil blank⟩ ?_
  rintro done e rest same l ⟨inst, found, exporting⟩
  apply Ends.step (inst_eq found)
  cases there : (inst.addresses e.kind)[e.index.toNat]? with
  | none => trivial
  | some addr =>
      refine Ends.of_ok rfl ⟨_, ?_, exporting.addExport ?_ there⟩
      · show (l.machine.store.instances.modify id _)[id]? = _
        rw [Array.getElem?_modify, if_pos rfl, found, Option.map_some]
      · rw [same, List.map_append, List.map_cons, List.nodup_append] at names
        exact fun old mem => names.2.2 old.name (List.mem_map_of_mem mem) e.name List.mem_cons_self

/-! ## Later stages -/

theorem liftConstant_same {α : Type} (x : Except ConstantProblem α) :
    Ends (liftConstant x) l (fun _ l' => l' = l) fun _ _ => True := by
  cases x with
  | ok a => rfl
  | error problem => trivial

/-- A stage behind the definitions leaves the shape of the store and the instances alone. -/
structure Stays (l l' : Linker) : Prop where
  shape : l'.machine.store.shape = l.machine.store.shape
  instances : l'.machine.store.instances = l.machine.store.instances

theorem Stays.trans {l' l'' : Linker} (first : Stays l l') (second : Stays l' l'') : Stays l l'' :=
  ⟨second.shape.trans first.shape, second.instances.trans first.instances⟩

theorem modifyStore_stays {f : Store → Store}
    (shape : (f l.machine.store).shape = l.machine.store.shape)
    (instances : (f l.machine.store).instances = l.machine.store.instances)
    {Bad : LinkStop → Linker → Prop} :
    Ends (modifyStore f) l (fun _ l' => Stays l l') Bad :=
  Ends.of_ok rfl ⟨shape, instances⟩

theorem applyElement_stays {i : Nat} {e : Element} :
    Ends (applyElement id i e) l (fun _ l' => Stays l l') fun _ _ => True := by
  obtain ⟨owner, here⟩ : ∃ owner, Link.inst id l = .ok owner l := ⟨_, rfl⟩
  unfold applyElement
  apply Ends.step here
  dsimp only
  split
  · split
    · trivial
    · apply Ends.step rfl
      refine Ends.bind (liftConstant_same _) ?_
      rintro offset _ rfl
      apply Ends.step rfl
      apply Ends.step rfl
      split
      · exact Ends.stop rfl trivial
      · refine modifyStore_stays ?_ rfl
        exact (Store.shape_dropElem _ _).trans (Store.shape_writeTable _ _ _ _)
  · exact modifyStore_stays (Store.shape_dropElem _ _) rfl
  · exact Ends.pure ⟨rfl, rfl⟩

theorem applyData_stays {i : Nat} {d : DataSegment} :
    Ends (applyData id i d) l (fun _ l' => Stays l l') fun _ _ => True := by
  obtain ⟨owner, here⟩ : ∃ owner, Link.inst id l = .ok owner l := ⟨_, rfl⟩
  unfold applyData
  split
  · apply Ends.step here
    dsimp only
    split
    · trivial
    · apply Ends.step rfl
      refine Ends.bind (liftConstant_same _) ?_
      rintro offset _ rfl
      apply Ends.step rfl
      apply Ends.step rfl
      split
      · exact Ends.stop rfl trivial
      · refine modifyStore_stays ?_ rfl
        exact (Store.shape_dropData _ _).trans (Store.shape_writeMemory _ _ _ _)
  · exact Ends.pure ⟨rfl, rfl⟩

theorem runStart_stays (fuel : Nat) :
    Ends (runStart fuel id m) l (fun _ l' => Stays l l') fun _ _ => True := by
  obtain ⟨owner, here⟩ : ∃ owner, Link.inst id l = .ok owner l := ⟨_, rfl⟩
  unfold runStart
  split
  · apply Ends.step here
    split
    · trivial
    · next addr _ =>
        have ends := Run.invoke_evolves fuel addr [] l.machine
        refine Ends.discard ?_
        unfold Ends onMachine at *
        cases ran : Run.invoke fuel addr [] l.machine with
        | ok results machine =>
            rw [ran] at ends
            simp only [ran]
            exact ⟨ends.shape, ends.instances⟩
        | error stop machine =>
            simp only [ran]
  · exact Ends.pure ⟨rfl, rfl⟩

theorem Presents.stay {l' : Linker} (presents : Presents id m l) (stays : Stays l l') :
    Presents id m l' := presents.keep stays.instances

end Link

end WasmMachine
