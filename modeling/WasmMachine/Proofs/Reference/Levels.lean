/-
# The levels as targets

What the levels under the operands at hand say about control.  Each label above the
nearest frame, and the frame, is a place where control can land: the values under the
marker and the levels below it.  The searches of the machine count entries; here they
are read as lookups among these places, so that a position of the stack is always the
height under a known level.

A stack rests on a lower one when it was built on top of it.  Dropping everything down
to the height of the lower stack then gives the lower stack back.
-/

import WasmMachine.Proofs.Reference.Interpreter
import WasmMachine.Proofs.Safety.Stack

namespace WasmMachine

namespace Stack

/-- The stack of given operands and levels. -/
def of (operands : List Value) (levels : List Level) : Stack where
  operands := operands
  levels := levels
  base := Level.count levels

/-- A stack is known by its operands and its levels. -/
theorem eq_of {s : Stack} {operands : List Value} {levels : List Level}
    (top : s.operands = operands) (under : s.levels = levels) : s = of operands levels := by
  obtain ⟨operands', levels', base, rfl⟩ := s
  cases top
  cases under
  rfl

end Stack

/-- A place where control can land: the level of a marker that takes `arity` values,
and the levels below it. -/
structure Landing where
  arity : Nat
  level : Level
  outer : List Level

namespace Level

/-- The labels that code above the levels can name, the innermost one first. -/
def labels : List Level → List Landing
  | [] => []
  | ⟨.label target, below⟩ :: rest => ⟨target.arity, ⟨.label target, below⟩, rest⟩ :: labels rest
  | ⟨.frame _ _, _⟩ :: _ => []
  | ⟨.vacant, _⟩ :: rest => labels rest

/-- The frame that code above the levels returns from. -/
def frame? : List Level → Option Landing
  | [] => none
  | ⟨.frame arity locals, below⟩ :: rest => some ⟨arity, ⟨.frame arity locals, below⟩, rest⟩
  | ⟨.label _, _⟩ :: rest => frame? rest
  | ⟨.vacant, _⟩ :: rest => frame? rest

/-- The targets of code above the levels. -/
def targets (levels : List Level) : Reference.Targets :=
  ⟨(labels levels).map (·.arity), (frame? levels).map (·.arity)⟩

variable {levels : List Level} {place : Landing} {depth : Nat}

theorem exists_of_mem_labels (known : place ∈ labels levels) :
    ∃ inner, levels = inner ++ place.level :: place.outer := by
  induction levels with
  | nil => cases known
  | cons l rest ih =>
      obtain ⟨marker, below⟩ := l
      cases marker with
      | frame => cases known
      | vacant =>
          obtain ⟨inner, rfl⟩ := ih known
          exact ⟨_ :: inner, rfl⟩
      | label target =>
          rcases List.mem_cons.mp known with rfl | known
          · exact ⟨[], rfl⟩
          · obtain ⟨inner, rfl⟩ := ih known
            exact ⟨_ :: inner, rfl⟩

theorem exists_of_frame (known : frame? levels = some place) :
    ∃ inner, levels = inner ++ place.level :: place.outer := by
  induction levels with
  | nil => cases known
  | cons l rest ih =>
      obtain ⟨marker, below⟩ := l
      cases marker with
      | frame =>
          cases known
          exact ⟨[], rfl⟩
      | label | vacant =>
          obtain ⟨inner, rfl⟩ := ih known
          exact ⟨_ :: inner, rfl⟩

/-- The search for a label finds the label of that depth, at the height under its
level. -/
theorem labelAmong_count (levels : List Level) (depth : Nat) :
    (Stack.labelAmong? levels (count levels) depth).map (fun found => (found.1.arity, found.2)) =
      (labels levels)[depth]?.map fun place => (place.arity, place.level.position place.outer) := by
  induction levels generalizing depth with
  | nil => rfl
  | cons l rest ih =>
      have inside := count_cons_sub l rest
      obtain ⟨marker, below⟩ := l
      cases marker with
      | frame => rfl
      | vacant =>
          have found := ih depth
          rw [← inside] at found
          exact found
      | label target =>
          cases depth with
          | zero =>
              rw [count_cons]
              rfl
          | succ depth =>
              have found := ih depth
              rw [← inside] at found
              exact found

/-- The search for the frame finds the nearest one, at the height under its level. -/
theorem frameAmong_count (levels : List Level) :
    (Stack.frameAmong? levels (count levels)).map (fun found => (found.1.1, found.2)) =
      (frame? levels).map fun place => (place.arity, place.level.position place.outer) := by
  induction levels with
  | nil => rfl
  | cons l rest ih =>
      have inside := count_cons_sub l rest
      obtain ⟨marker, below⟩ := l
      cases marker with
      | frame =>
          rw [count_cons]
          rfl
      | label | vacant =>
          rw [Stack.frameAmong?, inside]
          exact ih

/-! ## Stacks on top of others -/

/-- Operands and levels that were built on top of others, of which `bottom` were the
operands at hand. -/
inductive Rests (bottom : List Value) (levels : List Level) : List Value → List Level → Prop
  | here (upper : List Value) : Rests bottom levels (upper ++ bottom) levels
  | under {operands : List Value} {l : Level} {rest : List Level} :
      Rests bottom levels l.below rest → Rests bottom levels operands (l :: rest)

namespace Rests

variable {bottom upper operands below : List Value} {upperLevels rest : List Level} {m : Marker}

/-- All operands at hand are on top of none. -/
theorem bare (operands : List Value) (levels : List Level) : Rests [] levels operands levels := by
  have rests : Rests [] levels (operands ++ []) levels := here operands
  rwa [List.append_nil] at rests

/-- What rests on operands rests on the lower ones among them. -/
theorem drop (rests : Rests (upper ++ bottom) levels operands upperLevels) :
    Rests bottom levels operands upperLevels := by
  induction rests with
  | here above =>
      rw [← List.append_assoc]
      exact here (above ++ upper)
  | under _ ih => exact under ih

/-- What rests on a marker rests on the values under it. -/
theorem pop (rests : Rests [] (⟨m, below⟩ :: levels) operands upperLevels) :
    Rests below levels operands upperLevels := by
  generalize equal : (⟨m, below⟩ :: levels : List Level) = lower at rests
  induction rests with
  | here above =>
      subst equal
      exact under (here [])
  | under _ ih => exact under ih

theorem height_le (rests : Rests bottom levels operands upperLevels) :
    bottom.length + count levels ≤ operands.length + count upperLevels := by
  induction rests with
  | here above =>
      rw [List.length_append]
      omega
  | under _ ih =>
      rw [count]
      omega

/-- Dropping everything above the height of the lower stack leaves the lower stack. -/
theorem dropEntries_eq (rests : Rests bottom levels operands upperLevels) :
    Stack.dropEntries
      (operands.length + count upperLevels - (bottom.length + count levels)) operands upperLevels
      = (bottom, levels) := by
  induction rests with
  | here above =>
      have beyond : (above ++ bottom).length + count levels - (bottom.length + count levels)
          = above.length := by
        rw [List.length_append]
        omega
      rw [beyond]
      cases levels with
      | nil => rw [Stack.dropEntries, List.drop_left]
      | cons l rest => rw [Stack.dropEntries, if_pos (by simp), List.drop_left]
  | @under operands l rest rests ih =>
      have high := rests.height_le
      have beyond : operands.length + count (l :: rest) - (bottom.length + count levels)
          - operands.length - 1
          = l.below.length + count rest - (bottom.length + count levels) := by
        rw [count]
        omega
      rw [Stack.dropEntries, if_neg, beyond, ih]
      rw [count]
      omega

/-- The same for a whole stack. -/
theorem truncate_eq {s : Stack} (rests : Rests s.operands s.levels operands upperLevels) :
    (Stack.of operands upperLevels).truncate s.length = s := by
  have dropped := rests.dropEntries_eq
  rw [← s.base_eq] at dropped
  have lower : s = Stack.of s.operands s.levels := Stack.eq_of rfl rfl
  refine (Stack.eq_of ?_ ?_).trans lower.symm
  · exact congrArg Prod.fst dropped
  · exact congrArg Prod.snd dropped

end Rests

end Level

end WasmMachine
