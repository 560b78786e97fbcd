/-
# Unwinding

Where the stack ends up when control is transferred.  Between the operands at hand and
the frame of the running function there is one level for each label in scope, so the
label at a depth is found at the level of that depth.  Dropping everything down to a
level leaves the values that lie under it and the levels below.
-/

import WasmMachine.Machine.Basic
import WasmMachine.Proofs.Safety.Outcome
import WasmMachine.Proofs.Safety.Values

namespace WasmMachine

namespace Level

/-- The height of the stack below a level, which is the position of its marker. -/
def position (l : Level) (outer : List Level) : Nat := l.below.length + count outer

theorem count_append (inner outer : List Level) :
    count (inner ++ outer) = count inner + count outer := by
  induction inner with
  | nil => simp [count]
  | cons l inner ih =>
      rw [List.cons_append, count, count, ih]
      omega

theorem count_cons_sub (l : Level) (outer : List Level) :
    count (l :: outer) - 1 - l.below.length = count outer := by
  rw [count]
  omega

theorem count_cons (l : Level) (outer : List Level) :
    count (l :: outer) = l.position outer + 1 := by
  rw [count, position]
  omega

end Level

namespace Stack

theorem dropEntries_zero (operands : List Value) (levels : List Level) :
    dropEntries 0 operands levels = (operands, levels) := by
  cases levels with
  | nil => rfl
  | cons l rest => simp [dropEntries]

/-- Dropping everything above the position of a marker, and the marker. -/
theorem dropEntries_levels (inner outer : List Level) (l : Level) (operands : List Value) :
    dropEntries (operands.length + Level.count (inner ++ l :: outer) - l.position outer) operands
      (inner ++ l :: outer) = (l.below, outer) := by
  induction inner generalizing operands with
  | nil =>
      have beyond : operands.length + Level.count (l :: outer) - l.position outer
          = operands.length + 1 := by
        rw [Level.count_cons]
        omega
      rw [List.nil_append, beyond, dropEntries, if_neg (by omega)]
      have nothing : operands.length + 1 - operands.length - 1 = 0 := by omega
      rw [nothing, dropEntries_zero]
  | cons first inner ih =>
      have counted := Level.count_append inner (l :: outer)
      rw [Level.count_cons] at counted
      have beyond : operands.length + Level.count (first :: (inner ++ l :: outer))
          - l.position outer - operands.length - 1
          = first.below.length + Level.count (inner ++ l :: outer) - l.position outer := by
        rw [Level.count]
        omega
      rw [List.cons_append, dropEntries, if_neg, beyond, ih]
      rw [Level.count]
      omega

theorem truncate_levels {s : Stack} {inner outer : List Level} {l : Level}
    (levels : s.levels = inner ++ l :: outer) :
    (s.truncate (l.position outer)).operands = l.below ∧
      (s.truncate (l.position outer)).levels = outer := by
  have dropped := dropEntries_levels inner outer l s.operands
  rw [← levels, ← s.base_eq] at dropped
  exact ⟨congrArg Prod.fst dropped, congrArg Prod.snd dropped⟩

/-- A stack with other operands at hand. -/
def withOperands (s : Stack) (operands : List Value) : Stack := { s with operands := operands }

theorem popValues?_append {s : Stack} {upper rest : List Value}
    (operands : s.operands = upper ++ rest) :
    s.popValues? upper.length = some (upper.reverse, s.withOperands rest) := by
  unfold popValues?
  rw [operands, if_pos (by simp), List.take_left, List.drop_left]
  rfl

end Stack

/-! ## Labels in scope -/

/-- The levels of a function that gives `results`: one for each label in scope, with the
types that a branch to it carries, and below them the frame. -/
inductive Scoped (results : List ValType) : List (List ValType) → List Level → Prop
  | frame {locals : Nat} {below : List Value} {outer : List Level} :
      Scoped results [] (⟨.frame results.length locals, below⟩ :: outer)
  | label {types : List ValType} {labels : List (List ValType)} {label : Label}
      {below : List Value} {levels : List Level} :
      label.arity = types.length → Scoped results labels levels →
      Scoped results (types :: labels) (⟨.label label, below⟩ :: levels)

namespace Scoped

variable {results types : List ValType} {labels : List (List ValType)} {levels : List Level}

/-- The label of a depth is at the level of that depth. -/
theorem label_at (within : Scoped results labels levels) {depth : Nat}
    (known : labels[depth]? = some types) :
    ∃ inner l outer label, levels = inner ++ l :: outer ∧ inner.length = depth ∧
      Stack.labelAmong? levels (Level.count levels) depth = some (label, l.position outer) ∧
      label.arity = types.length := by
  induction within generalizing depth with
  | frame => cases known
  | @label _ labels label below levels arity within ih =>
      cases depth with
      | zero =>
          cases known
          refine ⟨[], _, levels, label, rfl, rfl, ?_, arity⟩
          rw [Level.count_cons]
          rfl
      | succ depth =>
          obtain ⟨inner, l, outer, target, rfl, rfl, found, arity⟩ := ih known
          refine ⟨_ :: inner, l, outer, target, rfl, rfl, ?_, arity⟩
          rw [← Level.count_cons_sub ⟨.label label, below⟩] at found
          exact found

/-- The frame is below all labels. -/
theorem frame_at (within : Scoped results labels levels) :
    ∃ inner l outer locals, levels = inner ++ l :: outer ∧ inner.length = labels.length ∧
      Stack.frameAmong? levels (Level.count levels)
        = some ((results.length, locals), l.position outer) := by
  induction within with
  | @frame locals below outer =>
      refine ⟨[], _, outer, locals, rfl, rfl, ?_⟩
      rw [Level.count_cons]
      rfl
  | @label _ labels label below levels _ within ih =>
      obtain ⟨inner, l, outer, locals, rfl, length, found⟩ := ih
      refine ⟨_ :: inner, l, outer, locals, rfl, congrArg (· + 1) length, ?_⟩
      rw [← Level.count_cons_sub ⟨.label label, below⟩] at found
      exact found

end Scoped

/-- Control has left the levels above the one at a depth, and that level too: values of
the types `types` are on top of what was under it. -/
def Stack.Lands (n : Nat) (types : List ValType) (levels : List Level) (depth : Nat)
    (s : Stack) : Prop :=
  ∃ inner l values, levels = inner ++ l :: s.levels ∧ inner.length = depth ∧
    s.operands = values ++ l.below ∧ Values n values types.reverse

namespace Run

variable {m : Machine} {upper rest : List Value}

theorem popValues_eq (operands : m.stack.operands = upper ++ rest) :
    popValues upper.length m
      = .ok upper.reverse { m with stack := m.stack.withOperands rest } := by
  have popped := Stack.popValues?_append operands
  simp only [popValues, bind, EStateM.bind, get_eq, popped, modifyStack]
  rfl

/-- Unwinding to a level keeps as many values as are asked for. -/
theorem unwind_eq {inner outer : List Level} {l : Level}
    (operands : m.stack.operands = upper ++ rest) (levels : m.stack.levels = inner ++ l :: outer) :
    ∃ s : Stack, unwind (l.position outer) upper.length m = .ok () { m with stack := s } ∧
      s.operands = upper ++ l.below ∧ s.levels = outer := by
  have high : ¬ (m.stack.withOperands rest).length < l.position outer := by
    have base := m.stack.base_eq
    rw [levels, Level.count_append, Level.count_cons] at base
    show ¬ rest.length + m.stack.base < l.position outer
    omega
  obtain ⟨below, outside⟩ := Stack.truncate_levels (s := m.stack.withOperands rest) levels
  refine ⟨((m.stack.withOperands rest).truncate (l.position outer)).pushValues upper.reverse,
    ?_, ?_, outside⟩
  · simp only [unwind, bind, EStateM.bind, popValues_eq operands, height, get_eq, pure,
      EStateM.pure, high, if_false, modifyStack]
    rfl
  · rw [Stack.pushValues, below, List.reverse_reverse]

/-- The label at the top goes, and what was above it stays. -/
theorem endLabel_eq {outer : List Level} {label : Label} {under : List Value}
    (operands : m.stack.operands = upper ++ rest)
    (levels : m.stack.levels = ⟨.label label, under⟩ :: outer) :
    ∃ s : Stack, endLabel (under.length + Level.count outer) upper.length m
        = .ok () { m with stack := s } ∧
      s.operands = upper ++ under ∧ s.levels = outer := by
  have there : (m.stack.withOperands rest).labelAtPosition? (under.length + Level.count outer)
      = some label := by
    have base : m.stack.base = under.length + 1 + Level.count outer := by
      rw [m.stack.base_eq, levels]
      rfl
    show Stack.labelAtAmong? _ m.stack.levels m.stack.base = _
    rw [levels, Stack.labelAtAmong?, if_pos (by omega)]
  have top : (m.stack.withOperands rest).levels = [] ++ ⟨.label label, under⟩ :: outer := levels
  obtain ⟨below, outside⟩ := Stack.truncate_levels top
  refine ⟨((m.stack.withOperands rest).truncate
    (under.length + Level.count outer)).pushValues upper.reverse, ?_, ?_, outside⟩
  · simp only [endLabel, bind, EStateM.bind, popValues_eq operands, get_eq, there, modifyStack]
    rfl
  · rw [Stack.pushValues, List.reverse_reverse]
    exact congrArg (upper ++ ·) below

end Run

end WasmMachine
