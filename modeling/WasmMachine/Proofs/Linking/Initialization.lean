/-
# Active segments are applied in order, up to the first that does not fit

Behind the definitions come the segments, those for tables before those for memories.  When
all of them fit, the start function finds them one over the other, the later above the
earlier.  When one does not, the instantiation fails with an out-of-bounds trap as the cause,
and the store is the one that the segments before it have made: it and all later ones have
written nothing.

Whether a segment fits is asked of the store in which the definitions are complete.  That
suffices, for sizes and offsets do not change from one segment to the next.
-/

import WasmMachine.Proofs.Linking.External
import WasmMachine.Proofs.Linking.Segments

namespace WasmMachine

open Typing

/-- The report on a segment that does not fit has the out-of-bounds trap as its cause. -/
theorem Segment.Overlong.toFault {s : Store} {inst : ModuleInstance} {segment : Segment}
    {e : LinkError} (overlong : segment.Overlong s inst e) :
    ∃ stage trap detail, (stage, trap) ∈ [("elem", Trap.tableBounds), ("data", .memoryBounds)] ∧
      e.toFault = LinkError.instantiation stage detail (some trap.toFault) := by
  cases overlong with
  | element => exact ⟨"elem", .tableBounds, _, by simp, rfl⟩
  | data => exact ⟨"data", .memoryBounds, _, by simp, rfl⟩

namespace Link

variable {l : Linker} {m : Module} {externs : List Extern} {name : String}

/-! ## Stages in a row -/

/-- The stages of an instantiation behind the segments. -/
def finish (fuel : Nat) (m : Module) (name : String) (id : InstanceId) : Link InstanceId := do
  runStart fuel id m
  if name ≠ "" then modify (·.register name id)
  return id

/-- Both sorts of segments are one list. -/
theorem forM_segments (id : InstanceId) :
    (do forEach m.elements (applyElement id); forEach m.data (applyData id) : Link Unit) =
      m.segments.forM (applySegment id) := by
  simp only [Module.segments, List.forM_eq_forM, List.forM_append, List.forM_map]
  rfl

theorem instantiate_eq (fuel : Nat) (m : Module) (name : String) :
    instantiate fuel m name = prepare m name >>= fun id =>
      m.segments.forM (applySegment id) >>= fun _ => finish fuel m name id := by
  simp only [← forM_segments, prepare, bind_assoc, pure_bind]
  rfl

/-- In a store whose immutable globals are in order a decoded and validated module is prepared
without a failure, and the new instance serves the context of the module. -/
theorem prepare_opens (checked : m.Checked) (placed : m.Placed) (sealed : l.machine.store.Sealed)
    (resolved : l.resolve m = .ok externs) :
    Ends (prepare m name) l
      (fun id l' => ∃ σ, Opened σ l' ∧ Served σ id m) fun _ _ => False := by
  unfold prepare
  apply Ends.step rfl
  simp only [resolved]
  apply Ends.step rfl
  have serves := Linker.serves_of_resolve name checked.imports resolved
  apply Ends.step (add_instance _)
  refine definitions_end (Store.sealed_upkeep _) checked
    ⟨Store.Serving.of_addInstance serves, sealed⟩ fun l₁ inv => ?_
  have served : Served l₁.machine.store.shape _ m := inv.1.home
  have opened : Opened l₁.machine.store.shape l₁ := ⟨rfl, inv.2⟩
  refine Ends.bind (bindExports_opens placed served opened) fun _ l₂ opened => ?_
  exact Ends.pure ⟨_, opened, served⟩

/-- Every active segment has a target and an offset, so it fits or it is too long. -/
theorem fits_or_overlong {σ : Shape} {inst : ModuleInstance} (checked : m.Checked)
    (placed : m.Placed) (opened : Opened σ l) (serves : σ.Serves inst (.ofModule m))
    {segment : Segment} (mem : segment ∈ m.segments) :
    segment.Fits l.machine.store inst ∨ ∃ e, segment.Overlong l.machine.store inst e := by
  cases segment with
  | element i e =>
      by_cases active : e.mode = .active
      · have mem := List.mem_of_getElem? (Module.element_mem_segments.mp mem)
        obtain ⟨addr, there⟩ := exists_tableAddr checked serves mem active
        obtain ⟨bits, ran⟩ := exists_offset opened serves (placed.elements e mem active)
        rcases Nat.lt_or_ge (l.machine.store.tableSize addr)
          (bits.toNat + (l.machine.store.refsOf (inst.elems[i]?.getD 0)).length) with
          beyond | inside
        · exact .inr ⟨_, .element active there ran beyond⟩
        · exact .inl fun _ => ⟨addr, bits, there, ran, inside⟩
      · exact .inl fun active' => absurd active' active
  | data i d =>
      by_cases active : d.mode = .active
      · have mem := List.mem_of_getElem? (Module.data_mem_segments.mp mem)
        obtain ⟨addr, there⟩ := exists_memoryAddr placed serves mem active
        obtain ⟨bits, ran⟩ := exists_offset opened serves (placed.data d mem active)
        rcases Nat.lt_or_ge (l.machine.store.memorySize addr)
          (bits.toNat + (l.machine.store.bytesOf (inst.datas[i]?.getD 0)).length) with
          beyond | inside
        · exact .inr ⟨_, .data active there ran beyond⟩
        · exact .inl fun _ => ⟨addr, bits, there, ran, inside⟩
      · exact .inl fun active' => absurd active' active

/-! ## The segments of an instantiation -/

/-- What becomes of the segments of a module whose definitions are complete in the store `p` of
a linker, where `rest` is left to do behind them and `result` is how it all ends. -/
structure Overlays (m : Module) (inst : ModuleInstance) (p : Store) (l : Linker)
    (rest : Link InstanceId) (result : EStateM.Result LinkStop Linker InstanceId) : Prop where
  /-- When all segments fit, what comes next starts with the overlay of all of them. -/
  fitting : (∀ segment ∈ m.segments, segment.Fits p inst) →
    ∃ s, p.Overlaid inst m.segments p s ∧ p.Settled inst m s ∧ result = rest (l.withStore s)
  /-- The first segment that does not fit ends it, with the overlay of those before it. -/
  cut : ∀ before segment after e, m.segments = before ++ segment :: after →
    (∀ earlier ∈ before, earlier.Fits p inst) → segment.Overlong p inst e →
    ∃ s, p.Overlaid inst before p s ∧ result = .error (.failed e) (l.withStore s) ∧
      ∃ stage trap detail, (stage, trap) ∈ [("elem", Trap.tableBounds), ("data", .memoryBounds)] ∧
        e.toFault = LinkError.instantiation stage detail (some trap.toFault)
  /-- There is no third case, as long as immutable globals hold what they should. -/
  decided : l.machine.store.Sealed →
    ∀ segment ∈ m.segments, segment.Fits p inst ∨ ∃ e, segment.Overlong p inst e

theorem Lays.overlays {first : ModuleInstance} {b : Batch} (fuel : Nat)
    (lays : Lays m first l.machine.store b) (elems : first.elems = #[]) (datas : first.datas = #[])
    (prepared : prepare m name l = .ok l.machine.store.instances.size (l.behind first b))
    (decided : l.machine.store.Sealed → ∀ segment ∈ m.segments,
      segment.Fits (l.machine.store.behind first b) (first.noting l.machine.store b) ∨
        ∃ e, segment.Overlong (l.machine.store.behind first b)
          (first.noting l.machine.store b) e) :
    Overlays m (first.noting l.machine.store b) (l.machine.store.behind first b) l
      (finish fuel m name l.machine.store.instances.size) (instantiate fuel m name l) := by
  have apart := (lays.keeps elems datas).apart
  have found : (l.machine.store.behind first b).instances[l.machine.store.instances.size]? =
      some (first.noting l.machine.store b) := Store.instance_behind
  have ran : instantiate fuel m name l =
      (m.segments.forM (applySegment l.machine.store.instances.size) >>= fun _ =>
        finish fuel m name l.machine.store.instances.size)
        (l.withStore (l.machine.store.behind first b)) := by
    rw [instantiate_eq]
    exact run_bind prepared
  refine ⟨?_, ?_, decided⟩
  · intro fits
    rw [← List.append_nil m.segments] at apart
    obtain ⟨s, overlaid, applied⟩ := applySegments_fit found apart fits
    exact ⟨s, overlaid, lays.settled elems datas overlaid, ran.trans (run_bind applied)⟩
  · intro before segment after e same fits overlong
    rw [same] at apart ran
    obtain ⟨s, overlaid, stopped⟩ := applySegments_overlong found apart fits overlong
    exact ⟨s, overlaid, ran.trans (run_bind_error stopped), overlong.toFault⟩

/-- The segments of a decoded and validated module whose imports resolve. The definitions of
the module are put behind everything that the linker has, its tables with null references and
its memories with zeros. Then the segments are applied in their order: all of them before the
start function, or those in front of the first that does not fit. It can come to an end
before the segments only where the embedder has given an immutable global a value that is not
of its type. -/
theorem instantiate_overlays {bytes : List UInt8} (decoded : Module.decode bytes = .ok m)
    (validated : m.validate = .ok ()) (resolved : l.resolve m = .ok externs) (fuel : Nat)
    (name : String) :
    (∃ b, Lays m (.fresh m name externs) l.machine.store b ∧
      Overlays m (.noting (.fresh m name externs) l.machine.store b)
        (l.machine.store.behind (.fresh m name externs) b) l
        (finish fuel m name l.machine.store.instances.size) (instantiate fuel m name l)) ∨
      ¬ l.machine.store.Sealed ∧ ∃ e b,
        instantiate fuel m name l = .error (.failed e) (l.behind (.fresh m name externs) b) := by
  have checked := Module.checked_of_decode decoded validated
  have placed := Module.placed_of_decode decoded validated
  have prepares := prepare_lays name resolved
  cases prepared : prepare m name l with
  | ok id l' =>
      obtain ⟨rfl, b, lays, rfl⟩ := prepares.good prepared
      refine .inl ⟨b, lays, lays.overlays fuel ?_ ?_ prepared fun sealed segment mem => ?_⟩
      · exact ModuleInstance.elems_foldl_addAddress _ externs
      · exact ModuleInstance.datas_foldl_addAddress _ externs
      · obtain ⟨σ, opened, served⟩ :=
          (prepare_opens checked placed sealed resolved).good prepared
        obtain ⟨inst, ran, serves⟩ := inst_served opened.shape served
        -- the instance that serves the module is the one that was laid out
        cases ran.symm.trans inst_behind
        exact fits_or_overlong checked placed opened serves mem
  | error stop l' =>
      obtain ⟨e, b, rfl, rfl⟩ := prepares.bad prepared
      refine .inr ⟨fun sealed => ?_, e, b, ?_⟩
      · exact (prepare_opens checked placed sealed resolved).bad prepared
      · rw [instantiate_eq]
        exact run_bind_error prepared

/-- A module with two element segments, the second over the end of the first, and with a data
segment that is too long for its empty memory. -/
def overlappingBytes : List UInt8 :=
  [0x00, 0x61, 0x73, 0x6d, 1, 0, 0, 0,
    1, 4, 1, 0x60, 0, 0,
    3, 3, 2, 0, 0,
    4, 4, 1, 0x70, 0, 2,
    5, 3, 1, 0, 0,
    9, 14, 2, 0, 0x41, 0, 0x0b, 2, 0, 0, 0, 0x41, 1, 0x0b, 1, 1,
    10, 7, 2, 2, 0, 0x0b, 2, 0, 0x0b,
    11, 7, 1, 0, 0x41, 0, 0x0b, 1, 7]

/-- What these bytes hold. -/
def overlappingModule : Module :=
  { types := [⟨[], []⟩]
    funcs := [0, 0]
    tables := [⟨.funcref, ⟨2, none⟩⟩]
    memories := [⟨⟨0, none⟩⟩]
    elements :=
      [⟨.active, 0, 0, .funcref, [.plain Opcode.i32Const (some (.i32 0))], some [0, 0], none⟩,
        ⟨.active, 0, 0, .funcref, [.plain Opcode.i32Const (some (.i32 1))], some [1], none⟩]
    code := [⟨[], []⟩, ⟨[], []⟩]
    data := [⟨.active, 0, 0, [.plain Opcode.i32Const (some (.i32 0))], [7]⟩] }

set_option maxRecDepth 20000 in
/-- In the empty linker the definitions of the module are complete, and its segments dealt with. -/
theorem instantiate_overlays_overlapping :
    Module.decode overlappingBytes = .ok overlappingModule ∧
      overlappingModule.validate = .ok () ∧ ({} : Linker).resolve overlappingModule = .ok [] ∧
      ∃ b, Lays overlappingModule (.fresh overlappingModule "" []) {} b ∧
        Overlays overlappingModule (.noting (.fresh overlappingModule "" []) {} b)
          (.behind {} (.fresh overlappingModule "" []) b) {} (finish 1 overlappingModule "" 0)
          (instantiate 1 overlappingModule "" {}) := by
  have decoded : Module.decode overlappingBytes = .ok overlappingModule := rfl
  have validated : overlappingModule.validate = .ok () := rfl
  have resolved : ({} : Linker).resolve overlappingModule = .ok [] := rfl
  refine ⟨decoded, validated, resolved, ?_⟩
  rcases instantiate_overlays decoded validated resolved 1 "" with laid | ⟨unsealed, -⟩
  · exact laid
  · exact absurd (Linker.Linked.sealed (.start rfl)) unsealed

/-- The entries of the table that it leaves behind. -/
example : [0, 1].map ((after (instantiate 1 overlappingModule "") {}).machine.store.refAt? 0) =
    [some (.func 0), some (.func 1)] := by decide +kernel

end Link

end WasmMachine
