/-
# What branches and returns leave on the stack

A branch to a label and a return from a frame carry values over everything that has come
on top of the label or the frame: values, labels and vacant entries in any order, as long as
no frame is in between.  They take the label or the frame away as well, so what is left is
the stack that was under it and the values.  When there is no such label or frame, or when
fewer values are at hand than it asks for, they trap and have not touched the stack.
-/

import WasmMachine.Machine.Run
import WasmMachine.Proofs.Unwinding.Entries

namespace WasmMachine

/-! ## Targets among entries -/

namespace Stack

/-- Over `under` lies a label, over that entries of which `depth` are labels and none is a
frame, and on top as many values as a branch to the label carries. -/
def AtLabel (s : Stack) (depth : Nat) (under : List Entry) (values : List Value) : Prop :=
  ∃ label between, s.entries = under ++ .marker (.label label) :: (between ++ values.map .value) ∧
    between.countP Entry.isLabel = depth ∧ (∀ e ∈ between, e.isFrame = false) ∧
    values.length = label.arity

/-- Over `under` lies the nearest frame, and on top of the stack are as many values as its
function gives. -/
def AtFrame (s : Stack) (under : List Entry) (values : List Value) : Prop :=
  ∃ arity locals between,
    s.entries = under ++ .marker (.frame arity locals) :: (between ++ values.map .value) ∧
    (∀ e ∈ between, e.isFrame = false) ∧ values.length = arity

/-- The values that a landing place takes are at hand, and `under` is the stack under it. -/
def Carries (s : Stack) (place : Landing) (under : List Entry) (values : List Value) : Prop :=
  values.length = place.arity ∧ (∃ rest, s.operands = values.reverse ++ rest) ∧
    under = (of place.level.below place.outer).entries

end Stack

namespace Level

variable {levels inner outer : List Level} {l : Level} {place : Landing} {depth arity locals : Nat}
  {target : Label}

/-- The labels in scope are those with no frame above them, counted from the top. -/
theorem labels_eq_some_iff :
    (labels levels)[depth]? = some place ↔
      ∃ inner target, levels = inner ++ place.level :: place.outer ∧
        inner.countP (·.marker.isLabel) = depth ∧ (∀ l ∈ inner, l.marker.isFrame = false) ∧
        place.level.marker = .label target ∧ place.arity = target.arity := by
  constructor
  · intro known
    induction levels generalizing depth with
    | nil => cases known
    | cons l rest ih =>
        obtain ⟨marker, below⟩ := l
        cases marker with
        | frame => cases known
        | vacant =>
            obtain ⟨inner, target, rfl, count, free, isTarget⟩ := ih known
            have still : (⟨.vacant, below⟩ :: inner).countP (·.marker.isLabel) = depth :=
              (List.countP_cons_of_neg Bool.false_ne_true).trans count
            exact ⟨_ :: inner, target, rfl, still, List.forall_mem_cons.mpr ⟨rfl, free⟩, isTarget⟩
        | label here =>
            cases depth with
            | zero =>
                cases known
                exact ⟨[], here, rfl, rfl, List.forall_mem_nil _, rfl, rfl⟩
            | succ depth =>
                obtain ⟨inner, target, rfl, count, free, isTarget⟩ := ih known
                have more : (⟨.label here, below⟩ :: inner).countP (·.marker.isLabel) = depth + 1 :=
                  (List.countP_cons_of_pos rfl).trans (congrArg (· + 1) count)
                exact ⟨_ :: inner, target, rfl, more, List.forall_mem_cons.mpr ⟨rfl, free⟩,
                  isTarget⟩
  · rintro ⟨inner, target, rfl, rfl, free, isTarget, takes⟩
    obtain ⟨arity, ⟨marker, below⟩, outer⟩ := place
    obtain rfl : marker = .label target := isTarget
    obtain rfl : arity = target.arity := takes
    induction inner with
    | nil => rfl
    | cons l inner ih =>
        obtain ⟨notFrame, others⟩ := List.forall_mem_cons.mp free
        obtain ⟨marker, below⟩ := l
        cases marker with
        | frame => cases notFrame
        | vacant => exact ih others
        | label =>
            rw [List.countP_cons_of_pos rfl]
            exact ih others

/-- The frame that is found is the nearest one. -/
theorem frame_eq_some_iff :
    frame? levels = some place ↔
      ∃ inner locals, levels = inner ++ place.level :: place.outer ∧
        (∀ l ∈ inner, l.marker.isFrame = false) ∧
        place.level.marker = .frame place.arity locals := by
  constructor
  · intro known
    induction levels with
    | nil => cases known
    | cons l rest ih =>
        obtain ⟨marker, below⟩ := l
        cases marker with
        | frame arity locals =>
            cases known
            exact ⟨[], locals, rfl, List.forall_mem_nil _, rfl⟩
        | label | vacant =>
            obtain ⟨inner, locals, rfl, free, isTarget⟩ := ih known
            exact ⟨_ :: inner, locals, rfl, List.forall_mem_cons.mpr ⟨rfl, free⟩, isTarget⟩
  · rintro ⟨inner, locals, rfl, free, isTarget⟩
    obtain ⟨arity, ⟨marker, below⟩, outer⟩ := place
    obtain rfl : marker = .frame arity locals := isTarget
    induction inner with
    | nil => rfl
    | cons l inner ih =>
        obtain ⟨notFrame, others⟩ := List.forall_mem_cons.mp free
        obtain ⟨marker, below⟩ := l
        cases marker with
        | frame => cases notFrame
        | label | vacant => exact ih others

end Level

namespace Stack

variable {s : Stack} {depth : Nat} {under : List Entry} {values : List Value}

/-- A label among the entries is a label among the levels. -/
theorem atLabel_iff : s.AtLabel depth under values ↔
    ∃ place, (Level.labels s.levels)[depth]? = some place ∧ s.Carries place under values := by
  constructor
  · rintro ⟨label, between, split, count, free, takes⟩
    obtain ⟨inner, below, outer, rest, levels, operands, rfl, rfl⟩ := entries_eq_iff.mp split
    rw [countP_isLabel_entries] at count
    refine ⟨⟨label.arity, ⟨.label label, below⟩, outer⟩, ?_, takes, ⟨rest, operands⟩, rfl⟩
    exact Level.labels_eq_some_iff.mpr
      ⟨inner, label, levels, count, (all_entries_iff rest inner).mp free, rfl, rfl⟩
  · rintro ⟨place, known, takes, ⟨rest, operands⟩, rfl⟩
    obtain ⟨inner, target, levels, count, free, isTarget, arity⟩ :=
      Level.labels_eq_some_iff.mp known
    refine ⟨target, (of rest inner).entries, entries_eq_iff.mpr ?_, ?_, ?_, takes.trans arity⟩
    · exact ⟨inner, place.level.below, place.outer, rest, isTarget ▸ levels, operands, rfl, rfl⟩
    · rw [countP_isLabel_entries, count]
    · exact (all_entries_iff rest inner).mpr free

/-- The nearest frame among the entries is that among the levels. -/
theorem atFrame_iff : s.AtFrame under values ↔
    ∃ place, Level.frame? s.levels = some place ∧ s.Carries place under values := by
  constructor
  · rintro ⟨arity, locals, between, split, free, takes⟩
    obtain ⟨inner, below, outer, rest, levels, operands, rfl, rfl⟩ := entries_eq_iff.mp split
    refine ⟨⟨arity, ⟨.frame arity locals, below⟩, outer⟩, ?_, takes, ⟨rest, operands⟩, rfl⟩
    exact Level.frame_eq_some_iff.mpr
      ⟨inner, locals, levels, (all_entries_iff rest inner).mp free, rfl⟩
  · rintro ⟨place, known, takes, ⟨rest, operands⟩, rfl⟩
    obtain ⟨inner, locals, levels, free, isTarget⟩ := Level.frame_eq_some_iff.mp known
    refine ⟨place.arity, locals, (of rest inner).entries, entries_eq_iff.mpr ?_, ?_, takes⟩
    · exact ⟨inner, place.level.below, place.outer, rest, isTarget ▸ levels, operands, rfl, rfl⟩
    · exact (all_entries_iff rest inner).mpr free

/-- With enough operands at hand a place is carried to. -/
theorem exists_carries {place : Landing} (enough : place.arity ≤ s.operands.length) :
    ∃ under values, s.Carries place under values :=
  ⟨_, (s.operands.take place.arity).reverse, by simp [enough],
    ⟨s.operands.drop place.arity, by simp⟩, rfl⟩

end Stack

/-! ## Unwinding to a place -/

namespace Run

variable {m : Machine} {place : Landing} {under : List Entry} {values : List Value} {depth : Nat}

/-- Unwinding to a place leaves what is under it and the values that it takes. -/
theorem unwind_of_carries {inner : List Level}
    (split : m.stack.levels = inner ++ place.level :: place.outer)
    (carries : m.stack.Carries place under values) :
    unwind (place.level.position place.outer) place.arity m =
      .ok () { m with stack := .ofEntries (under ++ values.map .value) } := by
  obtain ⟨takes, ⟨rest, operands⟩, rfl⟩ := carries
  obtain ⟨s, unwound, top, outside⟩ := unwind_eq operands split
  rw [List.length_reverse, takes] at unwound
  rw [unwound, Stack.ofEntries_append_values, Stack.ofEntries_of, Stack.eq_of top outside]
  rfl

/-- Without enough operands nothing is taken. -/
theorem unwind_of_few {height count : Nat} (few : m.stack.operands.length < count) :
    unwind height count m = .error (.trap .operands) m := by
  have none : m.stack.popValues? count = none := if_neg (Nat.not_le.mpr few)
  simp only [unwind, popValues, bind, EStateM.bind, get_eq, none]
  rfl

/-- A place is carried to, or there are not enough operands at hand to unwind to it. -/
theorem carries_or_few (m : Machine) (place : Landing) :
    (∃ under values, m.stack.Carries place under values) ∨
      ∀ height, unwind height place.arity m = .error (.trap .operands) m := by
  by_cases enough : place.arity ≤ m.stack.operands.length
  · exact .inl (Stack.exists_carries enough)
  · exact .inr fun height => unwind_of_few (Nat.not_le.mp enough)

theorem branch_of_none (missing : (Level.labels m.stack.levels)[depth]? = none) :
    branch depth m = .error (.trap (.unknownLabel depth)) m := by
  have searched := Level.labelAmong_count m.stack.levels depth
  rw [missing, ← m.stack.base_eq] at searched
  have found : m.stack.label? depth = none := Option.map_eq_none_iff.mp searched
  simp only [branch, bind, EStateM.bind, get_eq, found]
  rfl

theorem branch_of_place (known : (Level.labels m.stack.levels)[depth]? = some place) :
    branch depth m =
      (do unwind (place.level.position place.outer) place.arity
          return .branch depth : Run Exit) m := by
  have searched := Level.labelAmong_count m.stack.levels depth
  rw [known, ← m.stack.base_eq] at searched
  obtain ⟨⟨target, position⟩, found, same⟩ := Option.map_eq_some_iff.mp searched
  obtain ⟨arity, rfl⟩ := Prod.mk.inj same
  have found : m.stack.label? depth = some (target, place.level.position place.outer) := found
  have arity : target.arity = place.arity := arity
  simp only [branch, bind, EStateM.bind, get_eq, found, arity]

theorem leave_of_none (missing : Level.frame? m.stack.levels = none) :
    leave m = .error (.trap .noFrame) m := by
  have searched := Level.frameAmong_count m.stack.levels
  rw [missing, ← m.stack.base_eq] at searched
  have found : m.stack.frame? = none := Option.map_eq_none_iff.mp searched
  simp only [leave, bind, EStateM.bind, get_eq, found]
  rfl

theorem leave_of_place (known : Level.frame? m.stack.levels = some place) :
    leave m =
      (do unwind (place.level.position place.outer) place.arity
          return .returned : Run Exit) m := by
  have searched := Level.frameAmong_count m.stack.levels
  rw [known, ← m.stack.base_eq] at searched
  obtain ⟨⟨⟨arity, locals⟩, position⟩, found, same⟩ := Option.map_eq_some_iff.mp searched
  obtain ⟨rfl, rfl⟩ := Prod.mk.inj same
  have found : m.stack.frame? = some ((place.arity, locals), place.level.position place.outer) :=
    found
  simp only [leave, bind, EStateM.bind, get_eq, found]

end Run

/-! ## Branches and returns -/

/-- How the control instructions of a machine leave its stack. A branch or a return that finds
its target and the values it carries leaves what is under the target with these values on
top; any other one traps, and then the machine is as before. A branch table takes an index
off the stack and is a branch to the label that stands there, or to its last label when the
index, read without a sign, is past the others. -/
structure Machine.Unwinds (m : Machine) : Prop where
  branch : ∀ depth under values, m.stack.AtLabel depth under values →
    Run.branch depth m =
      .ok (.branch depth) { m with stack := .ofEntries (under ++ values.map .value) }
  noLabel : ∀ depth, (∀ under values, ¬ m.stack.AtLabel depth under values) →
    ∃ t, Run.branch depth m = .error (.trap t) m
  leave : ∀ under values, m.stack.AtFrame under values →
    Run.leave m = .ok .returned { m with stack := .ofEntries (under ++ values.map .value) }
  noFrame : (∀ under values, ¬ m.stack.AtFrame under values) →
    ∃ t, Run.leave m = .error (.trap t) m
  table : ∀ fuel i under (index : UInt32), i.opcode = Opcode.brTable →
    m.stack.entries = under ++ [.value (.i32 index)] →
    Run.instruction (fuel + 1) i m =
      Run.branch (if inside : index.toNat < i.branchTable.1.length
        then i.branchTable.1[index.toNat] else i.branchTable.2).toNat
        { m with stack := .ofEntries under }
  noIndex : ∀ fuel i, i.opcode = Opcode.brTable →
    (∀ under index, m.stack.entries ≠ under ++ [.value (.i32 index)]) →
    ∃ t, Run.instruction (fuel + 1) i m = .error (.trap t) m

namespace Run

variable {m : Machine} {i : Instruction}

/-- A branch table reads its index and branches. -/
theorem instruction_brTable (fuel : Nat) (code : i.opcode = Opcode.brTable) :
    instruction (fuel + 1) i =
      (do let index ← step Step.popI32
          branch (branchTarget i.branchTable.1 i.branchTable.2 index).toNat : Run Exit) := by
  rw [instruction, code]
  rfl

theorem popI32_of_entries {under : List Entry} {index : UInt32}
    (top : m.stack.entries = under ++ [.value (.i32 index)]) :
    step Step.popI32 m = .ok index { m with stack := .ofEntries under } := by
  have whole : m.stack = (Stack.ofEntries under).push (.i32 index) := by
    apply Stack.eq_of_entries
    rw [top, ← Stack.pushEntry, Stack.entries_pushEntry, Stack.entries_ofEntries]
  obtain ⟨store, stack, frame, depth, options, names, records⟩ := m
  obtain rfl : stack = (Stack.ofEntries under).push (.i32 index) := whole
  rfl

theorem popI32_of_none (none : ∀ under index, m.stack.entries ≠ under ++ [.value (.i32 index)]) :
    step Step.popI32 m = .error (.trap .operands) m := by
  obtain ⟨store, ⟨operands, levels, base, same⟩, frame, depth, options, names, records⟩ := m
  cases operands with
  | nil => rfl
  | cons v rest =>
      cases v with
      | i32 index =>
          refine absurd ?_ (none (Stack.of rest levels).entries index)
          simp [Stack.entries, Stack.of]
      | _ => rfl

end Run

theorem Machine.unwinds (m : Machine) : m.Unwinds where
  branch depth under values atLabel := by
    obtain ⟨place, known, carries⟩ := Stack.atLabel_iff.mp atLabel
    obtain ⟨inner, split⟩ := Level.exists_of_mem_labels (List.mem_of_getElem? known)
    rw [Run.branch_of_place known]
    simp only [bind, EStateM.bind, Run.unwind_of_carries split carries]
    rfl
  noLabel depth missing := by
    cases known : (Level.labels m.stack.levels)[depth]? with
    | none => exact ⟨_, Run.branch_of_none known⟩
    | some place =>
        rcases Run.carries_or_few m place with ⟨under, values, carries⟩ | few
        · exact absurd (Stack.atLabel_iff.mpr ⟨place, known, carries⟩) (missing under values)
        · refine ⟨.operands, ?_⟩
          rw [Run.branch_of_place known]
          simp only [bind, EStateM.bind, few]
  leave under values atFrame := by
    obtain ⟨place, known, carries⟩ := Stack.atFrame_iff.mp atFrame
    obtain ⟨inner, split⟩ := Level.exists_of_frame known
    rw [Run.leave_of_place known]
    simp only [bind, EStateM.bind, Run.unwind_of_carries split carries]
    rfl
  noFrame missing := by
    cases known : Level.frame? m.stack.levels with
    | none => exact ⟨_, Run.leave_of_none known⟩
    | some place =>
        rcases Run.carries_or_few m place with ⟨under, values, carries⟩ | few
        · exact absurd (Stack.atFrame_iff.mpr ⟨place, known, carries⟩) (missing under values)
        · refine ⟨.operands, ?_⟩
          rw [Run.leave_of_place known]
          simp only [bind, EStateM.bind, few]
  table fuel i under index code top := by
    have picked : (if inside : index.toNat < i.branchTable.1.length
        then i.branchTable.1[index.toNat] else i.branchTable.2)
          = Run.branchTarget i.branchTable.1 i.branchTable.2 index := by
      unfold Run.branchTarget
      by_cases inside : index.toNat < i.branchTable.1.length
      · rw [dif_pos inside, List.getElem?_eq_getElem inside, Option.getD_some]
      · rw [dif_neg inside, List.getElem?_eq_none (Nat.not_lt.mp inside), Option.getD_none]
    rw [picked, Run.instruction_brTable fuel code]
    simp only [bind, EStateM.bind, Run.popI32_of_entries top]
  noIndex fuel i code none := by
    refine ⟨.operands, ?_⟩
    rw [Run.instruction_brTable fuel code]
    simp only [bind, EStateM.bind, Run.popI32_of_none none]

/-- A machine in the midst of a function that gives two values, in two blocks. -/
def Machine.midway : Machine where
  stack := .ofEntries [.value (.i32 7), .marker (.frame 2 0), .value (.i32 9),
    .marker (.label ⟨1, []⟩), .value (.i64 5), .marker (.label ⟨2, []⟩), .value (.i32 3),
    .value (.i32 1), .value (.i32 2)]

theorem Machine.unwinds_midway :
    (midway.stack.AtLabel 1 [.value (.i32 7), .marker (.frame 2 0), .value (.i32 9)] [.i32 2] ∧
      Run.branch 1 midway = .ok (.branch 1) { midway with
        stack := .ofEntries [.value (.i32 7), .marker (.frame 2 0), .value (.i32 9),
          .value (.i32 2)] }) ∧
    (midway.stack.AtFrame [.value (.i32 7)] [.i32 1, .i32 2] ∧
      Run.leave midway = .ok .returned { midway with
        stack := .ofEntries [.value (.i32 7), .value (.i32 1), .value (.i32 2)] }) ∧
    ∃ t, Run.branch 2 midway = .error (.trap t) midway := by
  have atLabel : midway.stack.AtLabel 1
      [.value (.i32 7), .marker (.frame 2 0), .value (.i32 9)] [.i32 2] :=
    ⟨⟨1, []⟩, [.value (.i64 5), .marker (.label ⟨2, []⟩), .value (.i32 3), .value (.i32 1)],
      Stack.entries_ofEntries _, rfl, by simp [Entry.isFrame, Marker.isFrame], rfl⟩
  have atFrame : midway.stack.AtFrame [.value (.i32 7)] [.i32 1, .i32 2] :=
    ⟨2, 0, [.value (.i32 9), .marker (.label ⟨1, []⟩), .value (.i64 5), .marker (.label ⟨2, []⟩),
      .value (.i32 3)], Stack.entries_ofEntries _, by simp [Entry.isFrame, Marker.isFrame], rfl⟩
  have noLabel : ∀ under values, ¬ midway.stack.AtLabel 2 under values := by
    intro under values atLabel
    obtain ⟨place, known, -⟩ := Stack.atLabel_iff.mp atLabel
    cases known
  exact ⟨⟨atLabel, (unwinds midway).branch 1 _ _ atLabel⟩,
    ⟨atFrame, (unwinds midway).leave _ _ atFrame⟩, (unwinds midway).noLabel 2 noLabel⟩

end WasmMachine
