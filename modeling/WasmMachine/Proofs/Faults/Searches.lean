/-
# Two searches of one tree

A tree of faults is searched for a report of a phase and a kind, to recognise a failure, and
for a report of a phase, to classify it.  The two are written apart from each other, and a
caller that classifies by the one may be tested by the other.  Both find what there is to find:
a tree has the reports that are reached by going down from fault to fault, through causes,
contexts, positions and joined parts alike.  So a tree is of a phase just when it is recognised
as some kind of failure of that phase.
-/

import Mathlib.Logic.Relation
import WasmMachine.Fault

namespace WasmMachine.Fault

/-! ## The reports of a tree -/

/-- What a report is about. -/
def category? : Fault → Option Category
  | .report category _ _ _ => some category
  | _ => none

/-- The faults directly below a fault. -/
inductive Unwraps : Fault → Fault → Prop
  | cause {f below : Fault} (there : f.cause? = some below) : Unwraps f below
  | part {separator : String} {parts : List Fault} {below : Fault} (mem : below ∈ parts) :
      Unwraps (.joined separator parts) below

/-- A report of a category is reached by going down. -/
def Reports (f : Fault) (category : Category) : Prop :=
  ∃ below, Relation.ReflTransGen Unwraps f below ∧ below.category? = some category

theorem Unwraps.sizeOf_lt {f below : Fault} (unwraps : f.Unwraps below) :
    sizeOf below < sizeOf f := by
  cases unwraps with
  | part mem =>
      have smaller := List.sizeOf_lt_of_mem mem
      simp only [joined.sizeOf_spec]
      omega
  | cause there =>
      cases f with
      | plain _ => cases there
      | joined _ _ => cases there
      | report _ _ _ cause =>
          obtain rfl : cause = some below := there
          simp only [report.sizeOf_spec, Option.some.sizeOf_spec]
          omega
      | context _ cause =>
          obtain rfl : cause = below := Option.some.inj there
          simp only [context.sizeOf_spec]
          omega
      | located _ _ cause =>
          obtain rfl : cause = below := Option.some.inj there
          simp only [located.sizeOf_spec]
          omega

/-- A search that looks at a fault and at what is directly below finds a report anywhere in the
tree, and only what is there. -/
theorem search_iff {Sought : Category → Prop} {search : Fault → Bool}
    (step : ∀ f, search f = true ↔
      (∃ category, f.category? = some category ∧ Sought category) ∨
        ∃ below, f.Unwraps below ∧ search below = true) (f : Fault) :
    search f = true ↔ ∃ category, Sought category ∧ f.Reports category := by
  constructor
  · induction f using (measure (sizeOf : Fault → Nat)).wf.induction with
    | h f ih =>
        intro found
        rcases (step f).mp found with ⟨category, own, sought⟩ | ⟨below, unwraps, found⟩
        · exact ⟨category, sought, f, .refl, own⟩
        · obtain ⟨category, sought, report, reached, own⟩ := ih below unwraps.sizeOf_lt found
          exact ⟨category, sought, report, .head unwraps reached, own⟩
  · rintro ⟨category, sought, report, reached, own⟩
    induction reached using Relation.ReflTransGen.head_induction_on with
    | refl => exact (step report).mpr (.inl ⟨category, own, sought⟩)
    | head unwraps _ found => exact (step _).mpr (.inr ⟨_, unwraps, found⟩)

/-! ## Both searches -/

/-- Where a fault has at most one directly below it, that is its cause. -/
theorem unwraps_iff_cause {f below : Fault} (single : ∀ separator parts, f ≠ joined separator parts) :
    f.Unwraps below ↔ f.cause? = some below := by
  constructor
  · intro unwraps
    cases unwraps with
    | cause there => exact there
    | part _ => exact absurd rfl (single _ _)
  · exact .cause

theorem unwraps_joined {separator : String} {parts : List Fault} {below : Fault} :
    (joined separator parts).Unwraps below ↔ below ∈ parts := by
  constructor
  · intro unwraps
    cases unwraps with
    | cause there => cases there
    | part mem => exact mem
  · exact .part

theorem anyHasKind_iff {category : Category} {parts : List Fault} :
    anyHasKind category parts = true ↔ ∃ f ∈ parts, f.hasKind category = true := by
  induction parts with
  | nil => simp [anyHasKind]
  | cons f rest ih => simp [anyHasKind, ih]

theorem anyInPhase_iff {phase : String} {parts : List Fault} :
    anyInPhase phase parts = true ↔ ∃ f ∈ parts, f.inPhase phase = true := by
  induction parts with
  | nil => simp [anyInPhase]
  | cons f rest ih => simp [anyInPhase, ih]

/-- The search for a phase and a kind finds the reports of that category. -/
theorem hasKind_iff {category : Category} {f : Fault} :
    f.hasKind category = true ↔ f.Reports category := by
  have step : ∀ f, hasKind category f = true ↔ (∃ own, category? f = some own ∧ own = category) ∨
      ∃ below, f.Unwraps below ∧ hasKind category below = true := by
    intro f
    cases f with
    | plain text => simp [hasKind, category?, unwraps_iff_cause, cause?]
    | report own path detail cause =>
        cases cause with
        | none => simp [hasKind, category?, unwraps_iff_cause, cause?]
        | some cause => simp [hasKind, category?, unwraps_iff_cause, cause?]
    | context text cause => simp [hasKind, category?, unwraps_iff_cause, cause?]
    | located part position cause => simp [hasKind, category?, unwraps_iff_cause, cause?]
    | joined separator parts => simp [hasKind, category?, unwraps_joined, anyHasKind_iff]
  refine (search_iff step f).trans ?_
  constructor
  · rintro ⟨_, rfl, reports⟩
    exact reports
  · exact fun reports => ⟨category, rfl, reports⟩

/-- The search for a phase finds the reports of that phase, whatever their kind. -/
theorem inPhase_iff {phase : String} {f : Fault} :
    f.inPhase phase = true ↔ ∃ kind, f.Reports ⟨phase, kind⟩ := by
  have step : ∀ f, inPhase phase f = true ↔ (∃ own, category? f = some own ∧ own.phase = phase) ∨
      ∃ below, f.Unwraps below ∧ inPhase phase below = true := by
    intro f
    cases f with
    | plain text => simp [inPhase, category?, unwraps_iff_cause, cause?]
    | report own path detail cause =>
        cases cause with
        | none => simp [inPhase, category?, unwraps_iff_cause, cause?]
        | some cause => simp [inPhase, category?, unwraps_iff_cause, cause?]
    | context text cause => simp [inPhase, category?, unwraps_iff_cause, cause?]
    | located part position cause => simp [inPhase, category?, unwraps_iff_cause, cause?]
    | joined separator parts => simp [inPhase, category?, unwraps_joined, anyInPhase_iff]
  refine (search_iff step f).trans ?_
  constructor
  · rintro ⟨⟨_, kind⟩, rfl, reports⟩
    exact ⟨kind, reports⟩
  · rintro ⟨kind, reports⟩
    exact ⟨⟨phase, kind⟩, rfl, reports⟩

/-- An outcome, which may be no fault at all, is of a phase just when it is recognised as some
kind of failure of that phase; and a report that is put around it adds its own phase and no
other. -/
theorem inPhase_iff_recognised (outcome : Option Fault) (phase : String) :
    (outcome.any (inPhase phase) = true ↔
      ∃ kind, recognised outcome (some (bare phase kind)) = true) ∧
    ∀ (own : Category) (path : List String) (detail : String),
      (report own path detail outcome).inPhase phase = true ↔
        phase = own.phase ∨ outcome.any (inPhase phase) = true := by
  cases outcome with
  | none =>
      refine ⟨?_, fun own path detail => ?_⟩
      · simp [recognised]
      · simp [inPhase, eq_comm (a := phase)]
  | some f =>
      refine ⟨?_, fun own path detail => ?_⟩
      · simp only [Option.any_some, inPhase_iff, recognised, isLike, bare, hasKind_iff]
      · simp [inPhase, eq_comm (a := phase)]

/-- A trap is found behind a context, among joined parts and below a report of another phase. -/
example :
    let tree := context "outer" (joined "; " [.plain "first",
      bare Phase.validate "unknown_index",
      wrap Phase.link "instantiation" "start" (some (bare Phase.runtime "trap"))])
    tree.inPhase Phase.runtime = true ∧ tree.isLike (bare Phase.runtime "trap") = true ∧
      tree.inPhase Phase.parse = false := by decide

end WasmMachine.Fault
