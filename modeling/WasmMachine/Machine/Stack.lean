/-
# The stack

Operands and control share one stack.  An entry is a value, the label of a
construct or the frame of a function.  The values above the topmost label or
frame are the operands at hand; everything a plain instruction does happens among
them.  So the stack is kept as the operands at hand and, below them, levels: a
marker and the values that lie under it down to the next marker.

`entries` is the stack as one list, bottom first.  Heights and positions count
entries in that list.
-/

import WasmMachine.Instruction.Basic
import WasmMachine.Value

namespace WasmMachine

/-- A branch target: how many values a branch carries to it, and what a branch
runs, which is the body of a loop and nothing for other constructs. -/
structure Label where
  arity : Nat
  continuation : List Instruction

/-- An entry that is no value. A frame shows how many values its function gives
and how many local variables it has. A vacant entry holds nothing; it hides the
values under it as the other markers do, and searches pass over it. -/
inductive Marker
  | label (l : Label)
  | frame (arity locals : Nat)
  | vacant

/-- An entry of the stack. -/
inductive Entry
  | value (v : Value)
  | marker (m : Marker)

/-- A marker and the values under it, topmost first. -/
structure Level where
  marker : Marker
  below : List Value

/-- The number of entries in levels. -/
def Level.count : List Level → Nat
  | [] => 0
  | l :: rest => l.below.length + 1 + count rest

/-- The operands at hand, topmost first, and the levels below them, topmost
first. The number of entries in levels is kept beside them, so that the height of
a stack is known without a walk down to its bottom. -/
structure Stack where
  operands : List Value := []
  levels : List Level := []
  base : Nat := 0
  base_eq : base = Level.count levels := by rfl

namespace Stack

/-- The entries of a level, bottom first. -/
def levelEntries (l : Level) : List Entry := l.below.reverse.map .value ++ [.marker l.marker]

/-- The whole stack, bottom first. -/
def entries (s : Stack) : List Entry :=
  s.levels.reverse.flatMap levelEntries ++ s.operands.reverse.map .value

/-- The number of entries. -/
def length (s : Stack) : Nat := s.operands.length + s.base

/-- Put a value on top. -/
def push (s : Stack) (v : Value) : Stack := { s with operands := v :: s.operands }

/-- Put values on top, the last one topmost. -/
def pushValues (s : Stack) (vs : List Value) : Stack :=
  { s with operands := vs.reverse ++ s.operands }

/-- Put a marker on top. -/
def mark (s : Stack) (m : Marker) : Stack where
  levels := ⟨m, s.operands⟩ :: s.levels
  base := s.length + 1
  base_eq := by
    simp only [length, Level.count, s.base_eq]
    omega

/-- Put a value on top, or a vacant entry for want of one. -/
def put (s : Stack) : Option Value → Stack
  | some v => s.push v
  | none => s.mark .vacant

/-- Take the topmost entry. -/
def pop? (s : Stack) : Option (Entry × Stack) :=
  match s with
  | ⟨v :: rest, levels, base, h⟩ => some (.value v, ⟨rest, levels, base, h⟩)
  | ⟨[], l :: levels, base, h⟩ =>
      some (.marker l.marker, ⟨l.below, levels, base - 1 - l.below.length, by
        simp only [Level.count] at h
        omega⟩)
  | ⟨[], [], _, _⟩ => none

/-- Take the topmost entry if it is a value. -/
def popValue? (s : Stack) : Option (Value × Stack) :=
  match s.operands with
  | v :: rest => some (v, { s with operands := rest })
  | [] => none

/-- Take the topmost entry if it is a 32-bit integer. -/
def popI32? (s : Stack) : Option (UInt32 × Stack) :=
  match s.operands with
  | .i32 bits :: rest => some (bits, { s with operands := rest })
  | _ => none

/-- Take the topmost `n` entries, in the order they were pushed, if all of them
are values. -/
def popValues? (s : Stack) (n : Nat) : Option (List Value × Stack) :=
  if n ≤ s.operands.length then
    some ((s.operands.take n).reverse, { s with operands := s.operands.drop n })
  else none

/-- What is left of operands and levels without their topmost `n` entries. -/
def dropEntries (n : Nat) (operands : List Value) : List Level → List Value × List Level
  | [] => (operands.drop n, [])
  | l :: rest =>
      if n ≤ operands.length then (operands.drop n, l :: rest)
      else dropEntries (n - operands.length - 1) l.below rest

/-- Dropping entries leaves as many fewer. -/
theorem count_dropEntries (n : Nat) (operands : List Value) (levels : List Level) :
    (dropEntries n operands levels).1.length + Level.count (dropEntries n operands levels).2
      = operands.length + Level.count levels - n := by
  induction levels generalizing n operands with
  | nil => simp [dropEntries, Level.count]
  | cons l rest ih =>
      simp only [dropEntries]
      split
      · simp only [List.length_drop, Level.count]
        omega
      · rw [ih]
        simp only [Level.count]
        omega

/-- Drop everything above a height. -/
def truncate (s : Stack) (height : Nat) : Stack :=
  let kept := dropEntries (s.length - height) s.operands s.levels
  { operands := kept.1
    levels := kept.2
    base := min s.length height - kept.1.length
    base_eq := by
      have h := count_dropEntries (s.length - height) s.operands s.levels
      have e := s.base_eq
      simp only [length, kept] at h ⊢
      omega }

/-- The nearest frame among levels that hold `count` entries, with its
position. -/
def frameAmong? : List Level → Nat → Option ((Nat × Nat) × Nat)
  | [], _ => none
  | l :: rest, count =>
      match l.marker with
      | .frame arity locals => some ((arity, locals), count - 1)
      | .label _ | .vacant => frameAmong? rest (count - 1 - l.below.length)

/-- The arity and the number of locals of the nearest frame, and its position. -/
def frame? (s : Stack) : Option ((Nat × Nat) × Nat) := frameAmong? s.levels s.base

/-- The label at a depth among levels that hold `count` entries, with its
position. -/
def labelAmong? : List Level → Nat → Nat → Option (Label × Nat)
  | [], _, _ => none
  | l :: rest, count, depth =>
      match l.marker, depth with
      | .frame _ _, _ => none
      | .label target, 0 => some (target, count - 1)
      | .label _, depth + 1 => labelAmong? rest (count - 1 - l.below.length) depth
      | .vacant, depth => labelAmong? rest (count - 1 - l.below.length) depth

/-- The label at a depth, the innermost one first, and its position. The search
ends at the nearest frame. -/
def label? (s : Stack) (depth : Nat) : Option (Label × Nat) := labelAmong? s.levels s.base depth

/-- The label at a position among levels that hold `count` entries. -/
def labelAtAmong? (position : Nat) : List Level → Nat → Option Label
  | [], _ => none
  | l :: rest, count =>
      if count - 1 = position then
        match l.marker with
        | .label target => some target
        | .frame _ _ | .vacant => none
      else labelAtAmong? position rest (count - 1 - l.below.length)

/-- The label at a position, if there is one. -/
def labelAtPosition? (s : Stack) (position : Nat) : Option Label :=
  labelAtAmong? position s.levels s.base

end Stack

end WasmMachine
