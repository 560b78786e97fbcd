/-
# The contents of a section

What a section holds can be moved: its contents are read alike wherever they stand.  And
what a section puts into a module has nothing to do with the custom sections that were
read before it, which are the only part of a module to which sections add.
-/

import WasmMachine.Proofs.Binary.Portable
import WasmMachine.Proofs.Module.RoundTrip

namespace WasmMachine.Decoder

/-! ## Moving -/

namespace Portable

theorem limits : Portable Decoder.limits := by
  unfold Decoder.limits
  simp only [throw_bind]
  refine byte.bind fun flags => guard ?_
  refine u32.bind fun least => ite (pure _) ?_
  exact u32.bind fun most => guard (pure _)

theorem tableType : Portable Decoder.tableType := by
  unfold Decoder.tableType
  simp only [throw_bind]
  exact valType.bind fun elem => guard (limits.bind fun l => pure _)

theorem memoryType : Portable Decoder.memoryType := limits.bind fun _ => pure _

theorem globalType : Portable Decoder.globalType := by
  unfold Decoder.globalType
  simp only [throw_bind]
  exact valType.bind fun type => byte.bind fun flag => guard (pure _)

theorem typeSection (early : Bool) : Portable (Decoder.typeSection early) := by
  refine vector early fun i => byte.bind fun form => ?_
  simp only [throw_bind]
  refine guard (inside _ ?_)
  exact (vector early fun _ => valType).bind fun params =>
    (vector early fun _ => valType).bind fun results => pure _

theorem importItem : Portable Decoder.importItem := by
  unfold Decoder.importItem
  refine name.bind fun mod => name.bind fun field => byte.bind fun kind => ?_
  split
  · exact u32.bind fun _ => pure _
  · exact tableType.bind fun _ => pure _
  · exact memoryType.bind fun _ => pure _
  · exact globalType.bind fun _ => pure _
  · exact throw _

theorem global (early : Bool) (i : Nat) : Portable (Decoder.global early i) :=
  globalType.bind fun _ => (inside _ (expr early)).bind fun _ => pure _

theorem exportItem : Portable Decoder.exportItem := by
  unfold Decoder.exportItem
  simp only [throw_bind]
  exact name.bind fun field => byte.bind fun kind => guard (u32.bind fun _ => pure _)

theorem elementType (flags : UInt32) : Portable (Decoder.elementType flags) := by
  unfold Decoder.elementType
  simp only [throw_bind]
  refine ite (pure _) (ite ?_ ?_)
  · exact valType.bind fun type => guard (pure _)
  · exact byte.bind fun kind => guard (pure _)

theorem elementTable (flags : UInt32) : Portable (Decoder.elementTable flags) := ite u32 (pure 0)

theorem elementOffset (early : Bool) (flags : UInt32) :
    Portable (Decoder.elementOffset early flags) := ite (expr early) (pure [])

theorem elementEntries (early : Bool) (flags : UInt32) :
    Portable (Decoder.elementEntries early flags) :=
  ite ((vector early fun _ => expr early).bind fun _ => pure _)
    ((vector early fun _ => u32).bind fun _ => pure _)

theorem element (early : Bool) : Portable (Decoder.element early) := by
  rw [element_parts]
  refine u32.bind fun flags => guard ?_
  refine (elementTable flags).bind fun table => (elementOffset early flags).bind fun offset => ?_
  exact (elementType flags).bind fun type => (elementEntries early flags).bind fun _ => pure _

theorem localGroups (n total : Nat) (done : List LocalGroup) :
    Portable (Decoder.localGroups n total done) := by
  induction n generalizing total done with
  | zero => exact pure _
  | succ n ih =>
      unfold Decoder.localGroups
      simp only [throw_bind]
      exact u32.bind fun count => guard (valType.bind fun type => ih _ _)

theorem funcBody (early : Bool) : Portable (Decoder.funcBody early) :=
  (count early).bind fun groups => (localGroups groups.toNat 0 []).bind fun _ =>
    (expr early).bind fun _ => pure _

theorem sizedBody (early : Bool) (i : Nat) : Portable (Decoder.sizedBody early i) := by
  rw [sizedBody_parts]
  refine u32.bind fun size =>
    sized (inside _ (funcBody early)) (fun body unread => guard (pure _)) ?_
  intro body unread unread' same r b s ran
  rw [Reader.left] at ran ⊢
  rwa [← same]

theorem dataTail (flags memory : UInt32) (offset : List Instruction) :
    Portable (Decoder.dataTail flags memory offset) :=
  u32.bind fun size => (bytes size.toNat).bind fun _ => pure _

theorem dataSegment (early : Bool) (i : Nat) : Portable (Decoder.dataSegment early i) := by
  rw [dataSegment_parts]
  refine u32.bind fun flags => guard ?_
  refine ite (u32.bind fun memory => ?_) ((pure 0).bind fun memory => ?_)
  all_goals
    exact ite ((pure []).bind fun _ => dataTail _ _ _)
      ((inside _ (expr early)).bind fun _ => dataTail _ _ _)

theorem customSection : Portable Decoder.customSection :=
  name.bind fun _ => left.bind fun n => (bytes n).bind fun _ => pure _

theorem sectionContents (early : Bool) (m : Module) (kind : SectionKind) :
    Portable (Decoder.sectionContents early m kind) := by
  cases kind with
  | custom => exact customSection.bind fun _ => pure _
  | type => exact (typeSection early).bind fun _ => pure _
  | import_ => exact (vector early fun _ => importItem).bind fun _ => pure _
  | function => exact (vector early fun _ => u32).bind fun _ => pure _
  | table => exact (vector early fun _ => tableType).bind fun _ => pure _
  | memory => exact (vector early fun _ => memoryType).bind fun _ => pure _
  | global => exact (vector early (global early)).bind fun _ => pure _
  | export_ => exact (vector early fun _ => exportItem).bind fun _ => pure _
  | start => exact u32.bind fun _ => pure _
  | element => exact (vector early fun i => inside _ (element early)).bind fun _ => pure _
  | dataCount => exact u32.bind fun _ => pure _
  | code => exact (vector early (sizedBody early)).bind fun _ => pure _
  | data => exact (vector early (dataSegment early)).bind fun _ => pure _

end Portable

/-! ## Custom sections keep out of the way -/

variable {early : Bool} {m m' : Module} {r r' : Reader}

/-- Any other section leaves the custom ones as they are, and does not look at them. -/
theorem sectionContents_of_ordinary {kind : SectionKind} (ordinary : kind ≠ .custom)
    (ran : sectionContents early m kind r = .ok m' r') :
    m'.customs = m.customs ∧ ∀ cs : List CustomSection,
      sectionContents early { m with customs := cs } kind r =
        .ok { m' with customs := cs } r' := by
  cases kind with
  | custom => exact absurd rfl ordinary
  | _ =>
      obtain ⟨a, middle, read, put⟩ := bind_eq_ok_iff.mp ran
      cases put
      exact ⟨rfl, fun cs => bind_eq_ok_iff.mpr ⟨a, _, read, rfl⟩⟩

/-- A custom section is put behind the ones that were read before it. -/
theorem sectionContents_custom_eq_ok_iff : sectionContents early m .custom r = .ok m' r' ↔
    ∃ c, customSection r = .ok c r' ∧ m' = { m with customs := m.customs ++ [c] } := by
  constructor
  · intro ran
    obtain ⟨c, middle, read, put⟩ := bind_eq_ok_iff.mp ran
    cases put
    exact ⟨c, read, rfl⟩
  · rintro ⟨c, read, rfl⟩
    exact bind_eq_ok_iff.mpr ⟨c, _, read, rfl⟩

/-- The contents of a custom section are a name and the data. -/
theorem customSection_eq_ok {c : CustomSection} (ran : customSection r = .ok c r') :
    ∃ title, Named title c.name ∧ r.rest = title ++ c.data := by
  obtain ⟨name, behind, titled, ran⟩ := bind_eq_ok_iff.mp ran
  obtain ⟨n, _, counted, ran⟩ := bind_eq_ok_iff.mp ran
  obtain ⟨data, last, taken, put⟩ := bind_eq_ok_iff.mp ran
  cases counted
  cases put
  obtain ⟨title, split, -, named⟩ := Yields.name _ _ _ titled
  obtain ⟨_, split', -, rfl, length⟩ := Yields.bytes _ _ _ _ taken
  have none : r'.rest = [] := by
    have total := congrArg List.length split'
    rw [List.length_append, length] at total
    exact List.length_eq_zero_iff.mp (by simpa [Reader.left] using total)
  refine ⟨title, named, ?_⟩
  rw [split, split', none, List.append_nil]

end WasmMachine.Decoder
