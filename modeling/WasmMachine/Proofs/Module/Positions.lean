/-
# Where errors are reported

Expressions, the contents of sections and whole modules are read by steps that stay in their
window.  Function bodies and sections are windows of their own, whose positions are reported
after the reader outside has gone on behind them; that they still lie in the input is the one
place where the window has to be known from outside.

So whatever position an error of a module or of an expression names, it is one of the input or
right behind it.
-/

import WasmMachine.Proofs.Binary.Cursors
import WasmMachine.Proofs.Module.Contents

namespace WasmMachine

namespace Decoder.StaysIn

variable {w : Reader}

/-! ## Expressions -/

theorem valType : StaysIn w Decoder.valType := by
  unfold Decoder.valType
  simp only [throw_bind]
  exact byte.bind fun b => guard rfl (pure _)

theorem blockType : StaysIn w Decoder.blockType := by
  unfold Decoder.blockType
  simp only [throw_bind]
  refine (signed 33).bind fun v => ite (guard rfl (pure _)) ?_
  exact guard rfl (pure _)

theorem memArg : StaysIn w Decoder.memArg := by
  unfold Decoder.memArg
  simp only [throw_bind]
  exact u32.bind fun align => guard rfl (u32.bind fun offset => pure _)

theorem miscImmediate : StaysIn w Decoder.miscImmediate := by
  refine u32.bind fun sub => ?_
  split
  · exact throw_plain rfl
  · exact (items _ fun _ => u32).bind fun _ => pure _

theorem vectorImmediate : StaysIn w Decoder.vectorImmediate := by
  refine u32.bind fun sub => ?_
  split
  · exact throw_plain rfl
  · split
    · exact memArg.bind fun _ => pure _
    · exact (bytes 16).bind fun _ => pure _
    · simp only [throw_bind]
      exact byte.bind fun lane => guard rfl (pure _)
    · exact pure _

theorem branchTable (early : Bool) : StaysIn w (Decoder.branchTable early) := by
  unfold Decoder.branchTable
  simp only [failIn_bind]
  refine u32.bind fun n => left.bind fun bytes => ite (failIn _ rfl) ?_
  exact (items _ fun _ => u32).bind fun labels => u32.bind fun _ => pure _

theorem selectImmediate : StaysIn w Decoder.selectImmediate := by
  unfold Decoder.selectImmediate
  simp only [failIn_bind]
  exact u32.bind fun n => ite (failIn _ rfl) (valType.bind fun _ => pure _)

theorem nullImmediate : StaysIn w Decoder.nullImmediate := by
  unfold Decoder.nullImmediate
  simp only [throw_bind]
  exact valType.bind fun t => guard rfl (pure _)

theorem immediate (early : Bool) (op : UInt8) : StaysIn w (Decoder.immediate early op) := by
  unfold Decoder.immediate
  split
  case h_3 => exact (branchTable early).bind fun _ => pure _
  case h_5 => exact u32.bind fun _ => u32.bind fun _ => pure _
  case h_12 => exact selectImmediate.bind fun _ => pure _
  case h_22 => exact (signed 32).bind fun _ => pure _
  case h_23 => exact (signed 64).bind fun _ => pure _
  case h_24 => exact u32le.bind fun _ => pure _
  case h_25 => exact u64le.bind fun _ => pure _
  case h_26 => exact nullImmediate.bind fun _ => pure _
  case h_28 => exact miscImmediate.bind fun _ => pure _
  case h_29 => exact vectorImmediate.bind fun _ => pure _
  case h_30 => exact ite (memArg.bind fun _ => pure _) (ite (pure _) (throw_plain rfl))
  case h_6 | h_7 | h_8 | h_9 | h_10 | h_11 => exact pure _
  all_goals exact u32.bind fun _ => pure _

/-- The three steps that read trees, all with the same fuel. -/
theorem steps (early : Bool) (fuel : Nat) :
    (∀ level done, StaysIn w (Decoder.sequence early fuel level done)) ∧
    (∀ level op, StaysIn w (Decoder.instruction early fuel level op)) ∧
    (∀ level, StaysIn w (Decoder.nested early fuel level)) := by
  induction fuel with
  | zero =>
      refine ⟨fun level done => ?_, fun level op => ?_, fun level => ?_⟩
      · rw [Decoder.sequence]
        exact failIn _ rfl
      · rw [Decoder.instruction]
        exact failIn _ rfl
      · rw [Decoder.nested]
        exact failIn _ rfl
  | succ fuel ih =>
      obtain ⟨sequence, instruction, nested⟩ := ih
      refine ⟨fun level done => ?_, fun level op => ?_, fun level => ?_⟩
      · rw [Decoder.sequence]
        refine (locate _ byte).bind fun op => ite (pure _) ?_
        exact (instruction level op).bind fun i => sequence level _
      · rw [Decoder.instruction]
        simp only [failIn_bind]
        refine ite ?_ ((locate _ (immediate early op)).bind fun _ => pure _)
        refine blockType.bind fun type => (nested level).bind fun body => ?_
        refine ite (ite (failIn _ rfl) ?_) (pure _)
        exact (nested level).bind fun arm => ite (failIn _ rfl) (pure _)
      · rw [Decoder.nested]
        exact ite (failIn _ rfl) (sequence _ _)

theorem expr (early : Bool) : StaysIn w (Decoder.expr early) := by
  unfold Decoder.expr
  simp only [failIn_bind]
  refine left.bind fun bytes => ((steps early _).1 0 []).bind fun read => ?_
  exact ite (failIn _ rfl) (pure _)

theorem wholeExpr (early : Bool) : StaysIn w (Decoder.wholeExpr early) := by
  unfold Decoder.wholeExpr
  simp only [throw_bind]
  exact (expr early).bind fun is => left.bind fun bytes => guard rfl (pure _)

/-! ## The contents of sections -/

theorem limits : StaysIn w Decoder.limits := by
  unfold Decoder.limits
  simp only [throw_bind]
  refine byte.bind fun flags => guard rfl ?_
  refine u32.bind fun least => ite (pure _) ?_
  exact u32.bind fun most => guard rfl (pure _)

theorem tableType : StaysIn w Decoder.tableType := by
  unfold Decoder.tableType
  simp only [throw_bind]
  exact valType.bind fun elem => guard rfl (limits.bind fun _ => pure _)

theorem memoryType : StaysIn w Decoder.memoryType := limits.bind fun _ => pure _

theorem globalType : StaysIn w Decoder.globalType := by
  unfold Decoder.globalType
  simp only [throw_bind]
  exact valType.bind fun type => byte.bind fun flag => guard rfl (pure _)

theorem typeItem (early : Bool) (i : Nat) : StaysIn w (do
    let form ← Decoder.byte
    if form != 0x60 then MonadExcept.throw (.inside (.type i) (.typeForm form))
    Decoder.inside (.type i) (Decoder.funcType early)) := by
  simp only [throw_bind]
  refine byte.bind fun form => guard rfl (inside _ ?_)
  exact (vector early fun _ => valType).bind fun params =>
    (vector early fun _ => valType).bind fun results => pure _

theorem importItem : StaysIn w Decoder.importItem := by
  refine name.bind fun mod => name.bind fun field => byte.bind fun kind => ?_
  split
  · exact u32.bind fun _ => pure _
  · exact tableType.bind fun _ => pure _
  · exact memoryType.bind fun _ => pure _
  · exact globalType.bind fun _ => pure _
  · exact throw_plain rfl

theorem global (early : Bool) (i : Nat) : StaysIn w (Decoder.global early i) :=
  globalType.bind fun _ => (inside _ (expr early)).bind fun _ => pure _

theorem exportItem : StaysIn w Decoder.exportItem := by
  unfold Decoder.exportItem
  simp only [throw_bind]
  exact name.bind fun field => byte.bind fun kind => guard rfl (u32.bind fun _ => pure _)

theorem elementType (flags : UInt32) : StaysIn w (Decoder.elementType flags) := by
  unfold Decoder.elementType
  simp only [throw_bind]
  refine ite (pure _) (ite ?_ ?_)
  · exact valType.bind fun type => guard rfl (pure _)
  · exact byte.bind fun kind => guard rfl (pure _)

theorem elementTable (flags : UInt32) : StaysIn w (Decoder.elementTable flags) :=
  ite u32 (pure 0)

theorem elementOffset (early : Bool) (flags : UInt32) :
    StaysIn w (Decoder.elementOffset early flags) := ite (expr early) (pure [])

theorem elementEntries (early : Bool) (flags : UInt32) :
    StaysIn w (Decoder.elementEntries early flags) :=
  ite ((vector early fun _ => expr early).bind fun _ => pure _)
    ((vector early fun _ => u32).bind fun _ => pure _)

theorem element (early : Bool) : StaysIn w (Decoder.element early) := by
  rw [element_parts]
  refine u32.bind fun flags => guard rfl ?_
  refine (elementTable flags).bind fun table => (elementOffset early flags).bind fun offset => ?_
  exact (elementType flags).bind fun type => (elementEntries early flags).bind fun _ => pure _

theorem localGroups (n total : Nat) (done : List LocalGroup) :
    StaysIn w (Decoder.localGroups n total done) := by
  induction n generalizing total done with
  | zero => exact pure _
  | succ n ih =>
      unfold Decoder.localGroups
      simp only [throw_bind]
      exact u32.bind fun count => guard rfl (valType.bind fun type => ih _ _)

theorem funcBody (early : Bool) : StaysIn w (Decoder.funcBody early) :=
  (count early).bind fun groups => (localGroups groups.toNat 0 []).bind fun _ =>
    (expr early).bind fun _ => pure _

theorem sizedBody (early : Bool) (i : Nat) : StaysIn w (Decoder.sizedBody early i) := by
  rw [sizedBody_parts]
  refine u32.bind fun size => ?_
  refine sized (fun _ _ _ => id) (window _) (fun inner => inside _ (funcBody early)) ?_
  intro body unread _
  exact guard rfl (pure _)

theorem dataTail (flags memory : UInt32) (offset : List Instruction) :
    StaysIn w (Decoder.dataTail flags memory offset) :=
  u32.bind fun size => (bytes size.toNat).bind fun _ => pure _

theorem dataSegment (early : Bool) (i : Nat) : StaysIn w (Decoder.dataSegment early i) := by
  rw [dataSegment_parts]
  refine u32.bind fun flags => guard rfl ?_
  refine ite (u32.bind fun memory => ?_) ((pure 0).bind fun memory => ?_)
  all_goals
    exact ite ((pure []).bind fun _ => dataTail _ _ _)
      ((inside _ (expr early)).bind fun _ => dataTail _ _ _)

theorem customSection : StaysIn w Decoder.customSection :=
  name.bind fun _ => left.bind fun n => (bytes n).bind fun _ => pure _

theorem sectionContents (early : Bool) (m : Module) (kind : SectionKind) :
    StaysIn w (Decoder.sectionContents early m kind) := by
  cases kind with
  | custom => exact customSection.bind fun _ => pure _
  | type => exact (vector early (typeItem early)).bind fun _ => pure _
  | import_ => exact (vector early fun _ => importItem).bind fun _ => pure _
  | function => exact (vector early fun _ => u32).bind fun _ => pure _
  | table => exact (vector early fun _ => tableType).bind fun _ => pure _
  | memory => exact (vector early fun _ => memoryType).bind fun _ => pure _
  | global => exact (vector early (global early)).bind fun _ => pure _
  | export_ => exact (vector early fun _ => exportItem).bind fun _ => pure _
  | start => exact u32.bind fun _ => pure _
  | element => exact (vector early fun i => inside _ (element early)).bind fun _ => pure _
  | dataCount => exact u32.bind fun _ => pure _
  | code => exact (vector early (sizedBody early)).bind fun _ => pure _
  | data => exact (vector early (dataSegment early)).bind fun _ => pure _

/-! ## Whole modules -/

theorem sectionKind (last : Nat) (id : UInt8) : StaysIn w (Decoder.sectionKind last id) := by
  unfold Decoder.sectionKind
  split
  · exact throw_plain rfl
  · exact pure _
  · exact guard rfl (pure _)

theorem sections (early : Bool) (fuel last : Nat) (m : Module) :
    StaysIn w (Decoder.sections early fuel last m) := by
  induction fuel generalizing last m with
  | zero => exact pure _
  | succ fuel ih =>
      rw [sections_step]
      refine left.bind fun n => ite (pure _) ?_
      refine (locate _ byte).bind fun id => (sectionKind last id).bind fun kind => ?_
      refine (locate _ u32).bind fun size => ?_
      refine sized (fun _ _ _ => locate_eq_ok_iff.mp) (locate _ (window _))
        (fun inner => inside _ (sectionContents early m kind)) fun m' unread reached => ?_
      refine ite (throw fun p named => ?_) (ih _ _)
      -- the position behind the contents, in the section and not behind it
      have here : p ∈ [unread.position] := named
      exact List.mem_singleton.mp here ▸ reached

theorem module_ (early : Bool) : StaysIn w (Decoder.module_ early) := by
  unfold Decoder.module_
  simp only [throw_bind]
  refine (locate _ u32le).bind fun magic => guard rfl ?_
  refine (locate _ u32le).bind fun version => guard rfl ?_
  refine left.bind fun n => (sections early _ 0 _).bind fun m => guard rfl ?_
  split
  · exact guard rfl (pure _)
  · exact pure _

end Decoder.StaysIn

open Decoder

/-- A position that a step on a whole input names lies in the input or right behind it. -/
theorem Decoder.StaysIn.position_le {α : Type} {bytes : List UInt8} {step : Decoder α}
    (stays : StaysIn (.ofBytes bytes) step) {cause : DecodeError} {r : Reader}
    (failed : step (.ofBytes bytes) = .error cause r) :
    ∀ p ∈ cause.positions, p ≤ bytes.length := by
  intro p named
  have spans := (stays.error _ cause r (.refl _) failed).2 p named
  simpa [Reader.bound, Reader.left, Reader.ofBytes] using spans.2

/-- The positions in the error of a module. -/
theorem Module.position_le_of_decodeWith {early : Bool} {bytes : List UInt8} {cause : DecodeError}
    (failed : Module.decodeWith early bytes = .error cause) :
    ∀ p ∈ cause.positions, p ≤ bytes.length := by
  unfold Module.decodeWith at failed
  split at failed
  · cases failed
  · next failed' =>
      cases failed
      exact (StaysIn.module_ early).position_le failed'

/-- The positions in the error of an expression. -/
theorem position_le_of_decodeExpr {bytes : List UInt8} {cause : DecodeError}
    (failed : decodeExpr bytes = .error cause) : ∀ p ∈ cause.positions, p ≤ bytes.length := by
  unfold decodeExpr at failed
  split at failed
  · cases failed
  · next failed' =>
      cases failed
      exact (StaysIn.wholeExpr true).position_le failed'

/-- Who reads an input sees it through windows, and so do the errors that decoding it gives. -/
structure SeenThroughWindows (input : List UInt8) : Prop where
  /-- Whatever was asked of whichever reader, each one is a window onto the input. -/
  onInput : ∀ script, ∀ c ∈ (Reader.Session.start input).run script, c.OnInput input
  /-- What any of them does when it is asked next. -/
  serves : ∀ script, ∀ c ∈ (Reader.Session.start input).run script, ∀ q, c.Serves input q
  /-- No reader goes back, and none moves unless it is asked. -/
  forward : ∀ script more j c, ((Reader.Session.start input).run script)[j]? = some c →
    ∃ c', ((Reader.Session.start input).run (script ++ more))[j]? = some c' ∧
      c'.opened = c.opened ∧ c.now.position ≤ c'.now.position ∧
      ((∀ step ∈ more, step.1 ≠ j) → c' = c)
  /-- The positions that the error of a module names. -/
  moduleError : ∀ cause, Module.decode input = .error cause →
    ∀ p ∈ cause.positions, p ≤ input.length
  /-- The positions that the error of an expression names. -/
  exprError : ∀ cause, decodeExpr input = .error cause →
    ∀ p ∈ cause.positions, p ≤ input.length

/-- Readers of an input, in any number and whatever they are asked for, are windows onto it, and
every position that an error of a module or an expression names is one of the input. -/
theorem seen_through_windows (input : List UInt8) : SeenThroughWindows input where
  onInput script c mem := (Reader.Session.placed_start script c mem).onInput
  serves script c mem q := (Reader.Session.placed_start script c mem).serves q
  forward script more j c found := by
    obtain ⟨c', found', opened, forward, same⟩ := Reader.Session.exists_run found more
    refine ⟨c', ?_, opened, forward.position_le, same⟩
    rwa [Reader.Session.run, List.foldl_append]
  moduleError _ failed := Module.position_le_of_decodeWith failed
  exprError _ failed := position_le_of_decodeExpr failed

end WasmMachine
