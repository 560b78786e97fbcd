/-
# One segment after the other

Dealing with one segment is an action that looks at the instance, at the offset and at two
sizes.  What it does is told for a segment that fits and for one that does not; for a list of
segments it follows by going through the list, since what a segment finds can be foretold
from the store in which the definitions are complete.

The segments of an instance lie side by side in the store.  So none empties another one, and
it can be said which of them are empty in the end.
-/

import WasmMachine.Proofs.Linking.Overlay

namespace WasmMachine

/-! ## Segments of a module -/

namespace Module

variable {m : Module} {i : Nat}

theorem element_mem_segments {e : Element} :
    .element i e ∈ m.segments ↔ m.elements[i]? = some e := by
  simp [segments, List.mk_mem_zipIdx_iff_getElem?]

theorem data_mem_segments {d : DataSegment} : .data i d ∈ m.segments ↔ m.data[i]? = some d := by
  simp [segments, List.mk_mem_zipIdx_iff_getElem?]

end Module

/-- No two segments empty the same segment of the store. -/
structure Segment.Apart (inst : ModuleInstance) (segments : List Segment) : Prop where
  elems : (segments.filterMap (·.droppedElem? inst)).Nodup
  datas : (segments.filterMap (·.droppedData? inst)).Nodup

/-- A segment is not emptied by one before it. -/
theorem Store.Overlaid.foretells_of_apart {p s : Store} {inst : ModuleInstance}
    {done rest : List Segment} {segment : Segment} (overlaid : p.Overlaid inst done p s)
    (apart : Segment.Apart inst (done ++ segment :: rest)) : Foretells p inst segment s := by
  refine overlaid.foretells ?_ ?_
  -- an address that this segment empties stands once in the list, so not among those before
  · intro addr dropped before
    have nodup := apart.elems
    rw [List.filterMap_append, List.filterMap_cons, Option.mem_def.mp dropped] at nodup
    exact (List.nodup_append.mp nodup).2.2 addr before addr List.mem_cons_self rfl
  · intro addr dropped before
    have nodup := apart.datas
    rw [List.filterMap_append, List.filterMap_cons, Option.mem_def.mp dropped] at nodup
    exact (List.nodup_append.mp nodup).2.2 addr before addr List.mem_cons_self rfl

/-- A step whose result is known. -/
theorem run_bind {ε σ α β : Type} {action : EStateM ε σ α} {next : α → EStateM ε σ β} {s s' : σ}
    {a : α} (run : action s = .ok a s') : (action >>= next) s = next a s' := by
  simp only [bind, EStateM.bind, run]

/-- A step that is known to stop. -/
theorem run_bind_error {ε σ α β : Type} {action : EStateM ε σ α} {next : α → EStateM ε σ β}
    {s s' : σ} {e : ε} (run : action s = .error e s') : (action >>= next) s = .error e s' := by
  simp only [bind, EStateM.bind, run]

/-- An action that cannot stop ends. -/
theorem Ends.exists_ok {ε σ α : Type} {action : EStateM ε σ α} {s : σ} {Good : α → σ → Prop}
    (ends : Ends action s Good fun _ _ => False) : ∃ a s', action s = .ok a s' ∧ Good a s' := by
  cases ran : action s with
  | ok a s' => exact ⟨a, s', rfl, ends.good ran⟩
  | error e s' => exact (ends.bad ran).elim

namespace Link

variable {id : InstanceId} {inst : ModuleInstance} {p s : Store} {l : Linker} {m : Module}
  {segment : Segment} {segments before rest : List Segment} {name : String}

/-! ## One segment -/

/-- Deal with one segment. -/
def applySegment (id : InstanceId) : Segment → Link Unit
  | .element i e => applyElement id i e
  | .data i d => applyData id i d

/-- Dealing with an active segment comes down to one comparison. -/
theorem applyElement_active {i : Nat} {e : Element} {table : Addr} {bits : UInt32}
    (found : s.instances[id]? = some inst) (active : e.mode = .active)
    (target : inst.tables[e.table.toNat]? = some table) (ran : s.offset inst e.offset = .ok bits) :
    applyElement id i e (l.withStore s) =
      if s.tableSize table < bits.toNat + (s.refsOf (inst.elems[i]?.getD 0)).length then
        .error (.failed (.elementBounds i e.table bits)) (l.withStore s)
      else .ok ⟨⟩ (l.withStore ((s.writeTable table bits.toNat
        (s.refsOf (inst.elems[i]?.getD 0))).dropElem (inst.elems[i]?.getD 0))) := by
  have lifted : liftConstant ((l.withStore s).machine.store.offset inst e.offset) (l.withStore s) =
      .ok bits (l.withStore s) := congrArg (liftConstant · (l.withStore s)) ran
  unfold applyElement
  refine (run_bind (inst_eq found)).trans ?_
  simp only [active, target]
  refine (run_bind rfl).trans ((run_bind lifted).trans ((run_bind rfl).trans ?_))
  refine (run_bind rfl).trans ?_
  split
  · next short => exact (if_pos short).symm
  · next fits => exact (if_neg fits).symm

theorem applyData_active {i : Nat} {d : DataSegment} {memory : Addr} {bits : UInt32}
    (found : s.instances[id]? = some inst) (active : d.mode = .active)
    (target : inst.memories[d.memory.toNat]? = some memory)
    (ran : s.offset inst d.offset = .ok bits) :
    applyData id i d (l.withStore s) =
      if s.memorySize memory < bits.toNat + (s.bytesOf (inst.datas[i]?.getD 0)).length then
        .error (.failed (.dataBounds i d.memory bits)) (l.withStore s)
      else .ok ⟨⟩ (l.withStore ((s.writeMemory memory bits.toNat
        (s.bytesOf (inst.datas[i]?.getD 0))).dropData (inst.datas[i]?.getD 0))) := by
  have lifted : liftConstant ((l.withStore s).machine.store.offset inst d.offset) (l.withStore s) =
      .ok bits (l.withStore s) := congrArg (liftConstant · (l.withStore s)) ran
  unfold applyData
  rw [if_pos active]
  refine (run_bind (inst_eq found)).trans ?_
  simp only [target]
  refine (run_bind rfl).trans ((run_bind lifted).trans ((run_bind rfl).trans ?_))
  refine (run_bind rfl).trans ?_
  split
  · next short => exact (if_pos short).symm
  · next fits => exact (if_neg fits).symm

theorem applyElement_fits {i : Nat} {e : Element} (found : s.instances[id]? = some inst)
    (fits : (Segment.element i e).Fits s inst) :
    ∃ s', s.AppliesElement inst e (inst.elems[i]?.getD 0) s' ∧
      applyElement id i e (l.withStore s) = .ok ⟨⟩ (l.withStore s') := by
  by_cases active : e.mode = .active
  · obtain ⟨table, bits, target, ran, inside⟩ := fits active
    refine ⟨_, .active active target ran inside, ?_⟩
    rw [applyElement_active found active target ran, if_neg (Nat.not_lt.mpr inside)]
  · have ends : Ends (applyElement id i e) (l.withStore s)
        (fun _ l' => ∃ s', s.AppliesElement inst e (inst.elems[i]?.getD 0) s' ∧ l' = l.withStore s')
        fun _ _ => False := by
      unfold applyElement
      apply Ends.step (inst_eq found)
      simp only
      split
      · contradiction
      · next declarative => exact Ends.of_ok rfl ⟨_, .declarative declarative, rfl⟩
      · next other => exact Ends.pure ⟨s, .passive active other, rfl⟩
    obtain ⟨_, _, ran, s', applies, rfl⟩ := ends.exists_ok
    exact ⟨s', applies, ran⟩

theorem applyData_fits {i : Nat} {d : DataSegment} (found : s.instances[id]? = some inst)
    (fits : (Segment.data i d).Fits s inst) :
    ∃ s', s.AppliesData inst d (inst.datas[i]?.getD 0) s' ∧
      applyData id i d (l.withStore s) = .ok ⟨⟩ (l.withStore s') := by
  by_cases active : d.mode = .active
  · obtain ⟨memory, bits, target, ran, inside⟩ := fits active
    refine ⟨_, .active active target ran inside, ?_⟩
    rw [applyData_active found active target ran, if_neg (Nat.not_lt.mpr inside)]
  · refine ⟨s, .passive active, ?_⟩
    unfold applyData
    rw [if_neg active]
    rfl

/-- A segment that fits is applied. -/
theorem applySegment_fits (found : s.instances[id]? = some inst) (fits : segment.Fits s inst) :
    ∃ s', s.Overlaid inst [segment] s s' ∧
      applySegment id segment (l.withStore s) = .ok ⟨⟩ (l.withStore s') := by
  cases segment with
  | element i e =>
      obtain ⟨s', applies, ran⟩ := applyElement_fits found fits
      exact ⟨s', applies.overlaid, ran⟩
  | data i d =>
      obtain ⟨s', applies, ran⟩ := applyData_fits found fits
      exact ⟨s', applies.overlaid, ran⟩

/-- A segment that does not fit stops the instantiation before it has written anything. -/
theorem applySegment_overlong (found : s.instances[id]? = some inst) {e : LinkError}
    (overlong : segment.Overlong s inst e) :
    applySegment id segment (l.withStore s) = .error (.failed e) (l.withStore s) := by
  cases overlong with
  | element active target ran beyond =>
      exact (applyElement_active found active target ran).trans (if_pos beyond)
  | data active target ran beyond =>
      exact (applyData_active found active target ran).trans (if_pos beyond)

/-! ## All segments -/

/-- One segment after the other, as long as they fit. -/
theorem applySegments_fit (found : p.instances[id]? = some inst)
    (apart : Segment.Apart inst (segments ++ rest))
    (fits : ∀ segment ∈ segments, segment.Fits p inst) :
    ∃ s, p.Overlaid inst segments p s ∧
      segments.forM (applySegment id) (l.withStore p) = .ok ⟨⟩ (l.withStore s) := by
  have ends : Ends (segments.forM (applySegment id)) (l.withStore p)
      (fun _ l' => ∃ s, p.Overlaid inst segments p s ∧ l' = l.withStore s) fun _ _ => False := by
    refine Ends.forM (fun done l' => ∃ s, p.Overlaid inst done p s ∧ l' = l.withStore s)
      ⟨p, .nil, rfl⟩ ?_
    rintro done segment later same _ ⟨s, overlaid, rfl⟩
    -- the segment is told against `p`, but it runs in the store that the ones before it left
    have foretells : p.Foretells inst segment s := by
      rw [same, List.append_assoc] at apart
      exact overlaid.foretells_of_apart apart
    have found : s.instances[id]? = some inst := by rwa [overlaid.instances]
    obtain ⟨s', above, ran⟩ :=
      applySegment_fits found (foretells.fits (fits segment (by simp [same])))
    exact Ends.of_ok ran ⟨s', overlaid.append (foretells.overlaid above), rfl⟩
  obtain ⟨_, _, ran, s, overlaid, rfl⟩ := ends.exists_ok
  exact ⟨s, overlaid, ran⟩

/-- A segment that does not fit is where it ends; the segments before it are applied. -/
theorem applySegments_overlong (found : p.instances[id]? = some inst)
    (apart : Segment.Apart inst (before ++ segment :: rest))
    (fits : ∀ earlier ∈ before, earlier.Fits p inst) {e : LinkError}
    (overlong : segment.Overlong p inst e) :
    ∃ s, p.Overlaid inst before p s ∧
      (before ++ segment :: rest).forM (applySegment id) (l.withStore p) =
        .error (.failed e) (l.withStore s) := by
  obtain ⟨s, overlaid, ran⟩ := applySegments_fit found apart fits
  have found : s.instances[id]? = some inst := by rwa [overlaid.instances]
  have stops : applySegment id segment (l.withStore s) = .error (.failed e) (l.withStore s) :=
    applySegment_overlong found ((overlaid.foretells_of_apart apart).overlong overlong)
  refine ⟨s, overlaid, ?_⟩
  rw [List.forM_eq_forM, List.forM_append, List.forM_cons]
  exact (run_bind ran).trans (run_bind_error stops)

end Link

/-! ## Where they lie -/

/-- Indices are told apart by the addresses behind them. -/
theorem nodup_filterMap_zipIdx {α : Type} {items : List α} {f : α × Nat → Option Addr} {n : Nat}
    (lies : ∀ item ∈ items.zipIdx, ∀ addr ∈ f item, addr = n + item.2) :
    (items.zipIdx.filterMap f).Nodup := by
  have increasing : items.zipIdx.Pairwise fun a b => a.2 < b.2 := by
    have indices : (items.zipIdx.map Prod.snd).Pairwise (· < ·) := by
      rw [List.zipIdx_map_snd]
      exact List.pairwise_lt_range'
    exact List.pairwise_map.mp indices
  rw [List.Nodup, List.pairwise_filterMap]
  refine increasing.imp_of_mem ?_
  intro a b memA memB before addr here addr' there same
  have equal : n + a.2 = n + b.2 :=
    (lies a memA addr here).symm.trans (same.trans (lies b memB addr' there))
  exact Nat.ne_of_lt before (Nat.add_left_cancel equal)

/-- The segments of an instance lie side by side in the store. -/
structure ModuleInstance.Keeps (inst : ModuleInstance) (m : Module) (elems datas : Nat) : Prop where
  elems : ∀ i < m.elements.length, inst.elems[i]? = some (elems + i)
  datas : ∀ i < m.data.length, inst.datas[i]? = some (datas + i)

namespace ModuleInstance.Keeps

variable {inst : ModuleInstance} {m : Module} {n k i : Nat} {addr : Addr}

theorem address_of_droppedElem? (keeps : inst.Keeps m n k) {e : Element}
    (listed : m.elements[i]? = some e)
    (dropped : (Segment.element i e).droppedElem? inst = some addr) : addr = n + i := by
  have inside := (List.getElem?_eq_some_iff.mp listed).1
  simp only [Segment.droppedElem?, keeps.elems i inside, Option.getD_some] at dropped
  split at dropped
  · exact (Option.some.inj dropped).symm
  · cases dropped

theorem address_of_droppedData? (keeps : inst.Keeps m n k) {d : DataSegment}
    (listed : m.data[i]? = some d)
    (dropped : (Segment.data i d).droppedData? inst = some addr) : addr = k + i := by
  have inside := (List.getElem?_eq_some_iff.mp listed).1
  simp only [Segment.droppedData?, keeps.datas i inside, Option.getD_some] at dropped
  split at dropped
  · exact (Option.some.inj dropped).symm
  · cases dropped

theorem apart (keeps : inst.Keeps m n k) : Segment.Apart inst m.segments := by
  constructor
  · have none : (m.data.zipIdx.filterMap fun x => (Segment.data x.2 x.1).droppedElem? inst) = [] :=
      List.filterMap_eq_nil_iff.mpr fun _ _ => rfl
    simp only [Module.segments, List.filterMap_append, List.filterMap_map, Function.comp_def, none,
      List.append_nil]
    refine nodup_filterMap_zipIdx (n := n) ?_
    rintro ⟨e, i⟩ mem addr dropped
    exact keeps.address_of_droppedElem? (List.mk_mem_zipIdx_iff_getElem?.mp mem) dropped
  · have none : (m.elements.zipIdx.filterMap fun x =>
        (Segment.element x.2 x.1).droppedData? inst) = [] :=
      List.filterMap_eq_nil_iff.mpr fun _ _ => rfl
    simp only [Module.segments, List.filterMap_append, List.filterMap_map, Function.comp_def, none,
      List.nil_append]
    refine nodup_filterMap_zipIdx (n := k) ?_
    rintro ⟨d, i⟩ mem addr dropped
    exact keeps.address_of_droppedData? (List.mk_mem_zipIdx_iff_getElem?.mp mem) dropped

/-- A segment of the store is emptied if its segment of the module is active or declarative. -/
theorem mem_droppedElems (keeps : inst.Keeps m n k) {e : Element}
    (listed : m.elements[i]? = some e) :
    n + i ∈ m.segments.filterMap (·.droppedElem? inst) ↔
      e.mode = .active ∨ e.mode = .declarative := by
  have inside := (List.getElem?_eq_some_iff.mp listed).1
  rw [List.mem_filterMap]
  constructor
  · rintro ⟨segment, mem, dropped⟩
    cases segment with
    | data j d => cases dropped
    | element j e' =>
        have listed' := Module.element_mem_segments.mp mem
        -- the address gives the index back, and so the segment
        have same : i = j :=
          Nat.add_left_cancel (keeps.address_of_droppedElem? listed' dropped)
        subst same
        cases listed.symm.trans listed'
        by_contra neither
        rw [Segment.droppedElem?, if_neg neither] at dropped
        cases dropped
  · intro emptied
    refine ⟨.element i e, Module.element_mem_segments.mpr listed, ?_⟩
    rw [Segment.droppedElem?, if_pos emptied, keeps.elems i inside]
    rfl

theorem mem_droppedDatas (keeps : inst.Keeps m n k) {d : DataSegment}
    (listed : m.data[i]? = some d) :
    k + i ∈ m.segments.filterMap (·.droppedData? inst) ↔ d.mode = .active := by
  have inside := (List.getElem?_eq_some_iff.mp listed).1
  rw [List.mem_filterMap]
  constructor
  · rintro ⟨segment, mem, dropped⟩
    cases segment with
    | element j e => cases dropped
    | data j d' =>
        have listed' := Module.data_mem_segments.mp mem
        have same : i = j :=
          Nat.add_left_cancel (keeps.address_of_droppedData? listed' dropped)
        subst same
        cases listed.symm.trans listed'
        by_contra passive
        rw [Segment.droppedData?, if_neg passive] at dropped
        cases dropped
  · intro active
    refine ⟨.data i d, Module.data_mem_segments.mpr listed, ?_⟩
    rw [Segment.droppedData?, if_pos active, keeps.datas i inside]
    rfl

end ModuleInstance.Keeps

/-- What was put behind an array. -/
theorem getElem?_append_toArray {α : Type} (cells : Array α) (added : List α) (i : Nat) :
    (cells ++ added.toArray)[cells.size + i]? = added[i]? := by
  rw [Array.getElem?_append_right (Nat.le_add_right _ _), Nat.add_sub_cancel_left,
    List.getElem?_toArray]

/-- What the segments of an instance hold when all of them have been dealt with: active and
declarative ones are empty, and the others hold what they declare. -/
structure Store.Settled (p : Store) (inst : ModuleInstance) (m : Module) (s : Store) : Prop where
  elements : ∀ (i : Nat) e, m.elements[i]? = some e → ∃ addr held,
    inst.elems[i]? = some addr ∧ p.elems[addr]? = some held ∧ p.Declares inst e held ∧
      s.elems[addr]? = some
        (if e.mode = .active ∨ e.mode = .declarative then { held with refs := [] } else held)
  data : ∀ (i : Nat) d, m.data[i]? = some d → ∃ addr,
    inst.datas[i]? = some addr ∧ p.datas[addr]? = some ⟨d.init⟩ ∧
      s.datas[addr]? = some (if d.mode = .active then ⟨[]⟩ else ⟨d.init⟩)

namespace Link.Lays

variable {m : Module} {first : ModuleInstance} {s s' : Store} {b : Batch}

/-- An instance without segments of its own so far keeps those of the batch. -/
theorem keeps (lays : Lays m first s b) (elems : first.elems = #[]) (datas : first.datas = #[]) :
    (first.noting s b).Keeps m s.elems.size s.datas.size where
  elems i inside := by
    have count := lays.elems.length_eq
    simp [ModuleInstance.noting, elems, getElem?_addressesFrom, ← count, inside]
  datas i inside := by
    simp [ModuleInstance.noting, datas, getElem?_addressesFrom, lays.datas, inside]

theorem settled (lays : Lays m first s b) (elems : first.elems = #[]) (datas : first.datas = #[])
    (overlaid : (s.behind first b).Overlaid (first.noting s b) m.segments (s.behind first b) s') :
    (s.behind first b).Settled (first.noting s b) m s' where
  elements i e listed := by
    have keeps := lays.keeps elems datas
    have inside := (List.getElem?_eq_some_iff.mp listed).1
    have inside' : i < b.elems.length := lays.elems.length_eq ▸ inside
    have there : (s.behind first b).elems[s.elems.size + i]? = some b.elems[i] :=
      (getElem?_append_toArray _ _ i).trans (List.getElem?_eq_getElem inside')
    refine ⟨s.elems.size + i, b.elems[i], keeps.elems i inside, there, ?_, ?_⟩
    · have declares := lays.elems.get inside inside'
      rwa [List.get_eq_getElem, List.get_eq_getElem,
        (List.getElem?_eq_some_iff.mp listed).2] at declares
    · rw [overlaid.elems, there, Option.map_some, if_congr (keeps.mem_droppedElems listed) rfl rfl]
  data i d listed := by
    have keeps := lays.keeps elems datas
    have inside := (List.getElem?_eq_some_iff.mp listed).1
    have there : (s.behind first b).datas[s.datas.size + i]? = some ⟨d.init⟩ := by
      refine (getElem?_append_toArray _ _ i).trans ?_
      rw [lays.datas, List.getElem?_map, listed, Option.map_some]
    refine ⟨s.datas.size + i, keeps.datas i inside, there, ?_⟩
    rw [overlaid.datas, there, Option.map_some, if_congr (keeps.mem_droppedDatas listed) rfl rfl]

end Link.Lays

end WasmMachine
