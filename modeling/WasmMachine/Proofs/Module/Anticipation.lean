/-
# What the checks of counts change

Every item of every vector takes a byte at least: types, imports, indices, tables, memories,
globals, exports, segments and what they hold, bodies and their locals, labels.  So the checks
of counts that stand in front of them refuse only what fails without them as well, and they
refuse it no later.
-/

import WasmMachine.Proofs.Binary.Anticipation
import WasmMachine.Proofs.Module.Positions

namespace WasmMachine

namespace Decoder

open Leb128

/-! ## No item is empty -/

/-- What is written in no more bytes than were read, and in some, was not read from none. -/
theorem Codec.nonempty {α : Type} {step : Decoder α} {write : α → List UInt8}
    {Fine : α → Prop} {normal : α → α} (codec : Codec step write Fine normal)
    (some : ∀ a, write a ≠ []) : Yields step fun bytes _ => bytes ≠ [] := by
  refine codec.yields.mono fun bytes a found empty => ?_
  have short := found.2
  rw [empty, List.length_nil, Nat.le_zero, List.length_eq_zero_iff] at short
  exact some a short

theorem u32_nonempty : Yields u32 fun bytes _ => bytes ≠ [] := Codec.u32.nonempty Codec.u32_ne_nil

theorem valType_nonempty : Yields valType fun bytes _ => bytes ≠ [] :=
  Codec.valType.nonempty fun _ => List.cons_ne_nil _ _

/-- Each group of locals has a byte for its number at least. -/
theorem yields_localGroups (n total : Nat) (done : List LocalGroup) :
    Yields (localGroups n total done) fun bytes _ => n ≤ bytes.length := by
  induction n generalizing total done with
  | zero => exact Yields.pure (Nat.zero_le _)
  | succ n ih =>
      unfold localGroups
      simp only [throw_bind]
      refine Yields.bind u32_nonempty fun head count some => ?_
      refine Yields.ite (fun _ => Yields.throw _) fun _ => ?_
      refine Yields.bind Yields.valType fun middle type _ => ?_
      refine (ih _ _).mono fun more groups enough => ?_
      have first := List.length_pos_iff.mpr some
      simp only [List.length_append]
      omega

namespace Anticipates

/-! ## Expressions -/

theorem branchTable : Anticipates (Decoder.branchTable true) (Decoder.branchTable false) := by
  unfold Decoder.branchTable
  simp only [failIn_bind]
  refine counted (fun n r few => ⟨_, rfl, .labels⟩) (fun n => refl _) (fun n => ?_) fun n w => ?_
  · refine Yields.bind (yields_items (fun _ => u32_nonempty) n.toNat) fun bytes labels enough => ?_
    refine Yields.bind Yields.u32 fun more fallback _ => Yields.pure ?_
    simp only [List.length_append]
    omega
  · refine (StaysIn.items _ fun _ => StaysIn.u32).bind fun labels => ?_
    exact StaysIn.u32.bind fun _ => StaysIn.pure _

theorem immediate (op : UInt8) :
    Anticipates (Decoder.immediate true op) (Decoder.immediate false op) := by
  unfold Decoder.immediate
  split
  case h_3 => exact branchTable.bind fun _ => refl _
  all_goals exact refl _

theorem steps (fuel : Nat) :
    (∀ level done, Anticipates (Decoder.sequence true fuel level done)
      (Decoder.sequence false fuel level done)) ∧
    (∀ level op, Anticipates (Decoder.instruction true fuel level op)
      (Decoder.instruction false fuel level op)) ∧
    (∀ level, Anticipates (Decoder.nested true fuel level) (Decoder.nested false fuel level)) := by
  induction fuel with
  | zero =>
      refine ⟨fun level done => ?_, fun level op => ?_, fun level => ?_⟩
      · rw [Decoder.sequence, Decoder.sequence]
        exact refl _
      · rw [Decoder.instruction, Decoder.instruction]
        exact refl _
      · rw [Decoder.nested, Decoder.nested]
        exact refl _
  | succ fuel ih =>
      obtain ⟨sequence, instruction, nested⟩ := ih
      refine ⟨fun level done => ?_, fun level op => ?_, fun level => ?_⟩
      · rw [Decoder.sequence, Decoder.sequence]
        refine (refl _).bind fun op => ite (refl _) ?_
        exact (instruction level op).bind fun i => sequence level _
      · rw [Decoder.instruction, Decoder.instruction]
        simp only [failIn_bind]
        refine ite ?_ ((locate _ (immediate op)).bind fun _ => refl _)
        refine (refl _).bind fun type => (nested level).bind fun body => ?_
        refine ite (ite (refl _) ?_) (refl _)
        exact (nested level).bind fun arm => refl _
      · rw [Decoder.nested, Decoder.nested]
        exact ite (refl _) (sequence _ _)

theorem expr : Anticipates (Decoder.expr true) (Decoder.expr false) := by
  unfold Decoder.expr
  refine (refl left).bind fun bytes => ((steps _).1 0 []).bind fun read => ?_
  exact refl _

theorem wholeExpr : Anticipates (Decoder.wholeExpr true) (Decoder.wholeExpr false) :=
  expr.bind fun _ => refl _

/-! ## The contents of sections -/

theorem valTypes : Anticipates (Decoder.vector true fun _ => Decoder.valType)
    (Decoder.vector false fun _ => Decoder.valType) :=
  vector (fun _ => refl _) (fun _ => valType_nonempty) fun _ _ => StaysIn.valType

theorem indices : Anticipates (Decoder.vector true fun _ => Decoder.u32)
    (Decoder.vector false fun _ => Decoder.u32) :=
  vector (fun _ => refl _) (fun _ => u32_nonempty) fun _ _ => StaysIn.u32

theorem typeSection : Anticipates (Decoder.typeSection true) (Decoder.typeSection false) := by
  refine vector (fun i => ?_) (fun i => (Codec.typeItem false i).nonempty Encode.funcType_ne_nil)
    fun i w => StaysIn.typeItem false i
  refine (refl _).bind fun form => ?_
  simp only [throw_bind]
  refine ite (refl _) (inside _ ?_)
  exact valTypes.bind fun params => valTypes.bind fun results => refl _

theorem global (i : Nat) : Anticipates (Decoder.global true i) (Decoder.global false i) :=
  (refl _).bind fun _ => (inside _ expr).bind fun _ => refl _

theorem exprs : Anticipates (Decoder.vector true fun _ => Decoder.expr true)
    (Decoder.vector false fun _ => Decoder.expr false) :=
  vector (fun _ => expr) (fun _ => (Codec.expr false).nonempty Codec.expr_ne_nil)
    fun _ _ => StaysIn.expr false

theorem element : Anticipates (Decoder.element true) (Decoder.element false) := by
  rw [element_parts, element_parts]
  refine (refl _).bind fun flags => ite (refl _) ?_
  refine (refl _).bind fun table => (ite expr (refl _)).bind fun offset => ?_
  refine (refl _).bind fun type => bind ?_ fun _ => refl _
  exact ite (exprs.bind fun _ => refl _) (indices.bind fun _ => refl _)

theorem funcBody : Anticipates (Decoder.funcBody true) (Decoder.funcBody false) := by
  refine count_bind (fun n => (refl _).bind fun _ => expr.bind fun _ => refl _) (fun n => ?_)
    fun n w => (StaysIn.localGroups _ _ _).bind fun _ => (StaysIn.expr false).bind fun _ =>
      StaysIn.pure _
  refine Yields.bind (yields_localGroups n.toNat 0 []) fun bytes groups enough => ?_
  refine Yields.bind (Codec.expr false).yields fun more body _ => Yields.pure ?_
  simp only [List.length_append]
  omega

theorem sizedBody (i : Nat) :
    Anticipates (Decoder.sizedBody true i) (Decoder.sizedBody false i) := by
  rw [sizedBody_parts, sizedBody_parts]
  refine (refl _).bind fun size => sized (fun _ _ _ => id) (inside _ funcBody) (fun w => ?_) ?_
  · exact StaysIn.inside _ (StaysIn.funcBody false)
  · exact fun body unread => refl _

theorem dataSegment (i : Nat) :
    Anticipates (Decoder.dataSegment true i) (Decoder.dataSegment false i) := by
  rw [dataSegment_parts, dataSegment_parts]
  refine (refl _).bind fun flags => ite (refl _) ?_
  refine ite ((refl _).bind fun memory => ?_) ((refl _).bind fun memory => ?_)
  all_goals
    exact ite (refl _) ((inside _ expr).bind fun _ => refl _)

theorem sectionContents (m : Module) (kind : SectionKind) :
    Anticipates (Decoder.sectionContents true m kind) (Decoder.sectionContents false m kind) := by
  cases kind with
  | custom => exact refl _
  | type => exact typeSection.bind fun _ => refl _
  | import_ =>
      exact (vector (fun _ => refl _)
        (fun _ => Codec.importItem.nonempty Encode.importItem_ne_nil)
        fun _ _ => StaysIn.importItem).bind fun _ => refl _
  | function => exact indices.bind fun _ => refl _
  | table =>
      exact (vector (fun _ => refl _) (fun _ => Codec.tableType.nonempty Encode.tableType_ne_nil)
        fun _ _ => StaysIn.tableType).bind fun _ => refl _
  | memory =>
      exact (vector (fun _ => refl _) (fun _ => Codec.memoryType.nonempty Encode.memoryType_ne_nil)
        fun _ _ => StaysIn.memoryType).bind fun _ => refl _
  | global =>
      exact (vector global (fun i => (Codec.global false i).nonempty Encode.global_ne_nil)
        fun i _ => StaysIn.global false i).bind fun _ => refl _
  | export_ =>
      exact (vector (fun _ => refl _)
        (fun _ => Codec.exportItem.nonempty Encode.exportItem_ne_nil)
        fun _ _ => StaysIn.exportItem).bind fun _ => refl _
  | start => exact refl _
  | element =>
      exact (vector (fun i => inside _ element)
        (fun i => (Codec.inside _ (Codec.element false)).nonempty Encode.element_ne_nil)
        fun i _ => StaysIn.inside _ (StaysIn.element false)).bind fun _ => refl _
  | dataCount => exact refl _
  | code =>
      exact (vector sizedBody (fun i => (Codec.sizedBody false i).nonempty Encode.sizedBody_ne_nil)
        fun i _ => StaysIn.sizedBody false i).bind fun _ => refl _
  | data =>
      exact (vector dataSegment
        (fun i => (Codec.dataSegment false i).nonempty Encode.dataSegment_ne_nil)
        fun i _ => StaysIn.dataSegment false i).bind fun _ => refl _

/-! ## Whole modules -/

theorem sections (fuel last : Nat) (m : Module) :
    Anticipates (Decoder.sections true fuel last m) (Decoder.sections false fuel last m) := by
  induction fuel generalizing last m with
  | zero => exact refl _
  | succ fuel ih =>
      rw [sections_step, sections_step]
      refine (refl _).bind fun n => ite (refl _) ?_
      refine (refl _).bind fun id => (refl _).bind fun kind => (refl _).bind fun size => ?_
      refine sized (fun _ _ _ => locate_eq_ok_iff.mp) (inside _ (sectionContents m kind))
        (fun w => StaysIn.inside _ (StaysIn.sectionContents false m kind)) fun m' unread => ?_
      exact ite (refl _) (ih _ _)

theorem module_ : Anticipates (Decoder.module_ true) (Decoder.module_ false) := by
  unfold Decoder.module_
  simp only [throw_bind]
  refine (refl _).bind fun magic => ite (refl _) ?_
  refine (refl _).bind fun version => ite (refl _) ?_
  exact (refl _).bind fun n => (sections _ 0 _).bind fun m => refl _

end Anticipates

end Decoder

open Decoder

/-- Decode a byte string that holds one expression, with or without the check of labels. -/
def decodeExprWith (early : Bool) (bytes : List UInt8) : Except DecodeError (List Instruction) :=
  match wholeExpr early (.ofBytes bytes) with
  | .ok is _ => .ok is
  | .error cause _ => .error cause

theorem decodeExpr_eq (bytes : List UInt8) : decodeExpr bytes = decodeExprWith true bytes := rfl

theorem decodeExprWith_eq_ok_iff (early : Bool) (bytes : List UInt8) (is : List Instruction) :
    decodeExprWith early bytes = .ok is ↔ ∃ r, wholeExpr early (.ofBytes bytes) = .ok is r := by
  unfold decodeExprWith
  cases wholeExpr early (.ofBytes bytes) with
  | ok found r => simp
  | error cause r => simp

/-- What the checks of counts make of an input. -/
structure ChecksAnticipate (bytes : List UInt8) : Prop where
  /-- The same modules are accepted, with the same result. -/
  module : ∀ m, Module.decode bytes = .ok m ↔ Module.decodeWith false bytes = .ok m
  /-- The same expressions are accepted, with the same result. -/
  expr : ∀ is, decodeExpr bytes = .ok is ↔ decodeExprWith false bytes = .ok is
  /-- A module that is not accepted fails as it does without the checks, or at a count, before
  it fails without them. -/
  moduleFailure : Anticipated (module_ true (.ofBytes bytes)) (module_ false (.ofBytes bytes))
  exprFailure : Anticipated (wholeExpr true (.ofBytes bytes)) (wholeExpr false (.ofBytes bytes))

/-- The checks of counts accept what is accepted without them, with the same result, and turn
other failures only into earlier ones. -/
theorem checks_anticipate (bytes : List UInt8) : ChecksAnticipate bytes where
  module m := by
    rw [Module.decode, decodeWith_eq_ok_iff, decodeWith_eq_ok_iff]
    exact exists_congr fun r => (Anticipates.module_ (.ofBytes bytes)).ok_iff m r
  expr is := by
    rw [decodeExpr_eq, decodeExprWith_eq_ok_iff, decodeExprWith_eq_ok_iff]
    exact exists_congr fun r => (Anticipates.wholeExpr (.ofBytes bytes)).ok_iff is r
  moduleFailure := Anticipates.module_ (.ofBytes bytes)
  exprFailure := Anticipates.wholeExpr (.ofBytes bytes)

/-- Five labels are announced in one byte: with the check that fails behind the count, without
it behind the byte. -/
example : wholeExpr true (.ofBytes [0x0e, 0x05, 0x00]) =
    .error (.located "br_table" 2 (.labelCount 5)) ⟨2, [0x00]⟩ := by cbv

example : wholeExpr false (.ofBytes [0x0e, 0x05, 0x00]) =
    .error (.located "code" 3 .endOfInput) ⟨3, []⟩ := by cbv

end WasmMachine
