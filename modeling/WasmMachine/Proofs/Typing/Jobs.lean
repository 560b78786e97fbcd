/-
# The checker one step at a time

The checker is a recursion over the tree of a body.  Here the same work is a list of jobs, and
one step does the first of them: it changes the two stacks in one place, or it puts further jobs
in its stead, or it stops at a violation.  The states between the steps are those that the
recursion passes through, also on the way to a violation.

A step is stricter than the checker in one respect: where operands are dropped down to the height
of a construct, it looks past the end of the operands if there are fewer of them.

The module also says what it means that the two stacks are in layers, one for each construct.
-/

import Mathlib.Logic.Relation
import WasmMachine.Proofs.Typing.Lookups

namespace WasmMachine.Typing

/-- A piece of the checker's work. -/
inductive Job
  | instruction (i : Instruction)
  | take (op : UInt8) (want : ValType)
  | drop (op : UInt8)
  | reference (op : UInt8)
  | upper (op : UInt8)
  | lower (op : UInt8) (above : ValType)
  | push (types : List ValType)
  | enter (loop : Bool) (type : FuncType)
  | leave
  | close
  | setUnreachable
  | branchTable (op : UInt8) (labels : List UInt32) (fallback : UInt32)
  | target (op : UInt8) (arity : Nat) (depth : UInt32)
  | restore (saved : List ValType)

namespace Job

/-- Operands of wanted types, taken one by one, the last one first. -/
def takes (op : UInt8) (types : List ValType) : List Job := types.reverse.map (take op)

/-- A body as a construct of its own. -/
def arm (loop : Bool) (type : FuncType) (body : List Instruction) : List Job :=
  enter loop type :: (body.map instruction ++ [leave])

/-- The jobs of an instruction without nested instructions. -/
def ofPlain (ctx : Context) (i : Instruction) : Check (List Job) := do
  let op := i.opcode
  match op with
  | Opcode.unreachable => return [setUnreachable]
  | Opcode.br =>
      let target ← Check.label i.branchLabel
      return takes op target.labelTypes ++ [setUnreachable]
  | Opcode.brIf =>
      let target ← Check.label i.branchLabel
      return take op .i32 :: (takes op target.labelTypes ++ [push target.labelTypes])
  | Opcode.brTable => return [take op .i32, branchTable op i.branchTable.1 i.branchTable.2]
  | Opcode.ret => return takes op ctx.results ++ [setUnreachable]
  | Opcode.drop => return [drop op]
  | Opcode.select => return [take op .i32, upper op]
  | Opcode.refIsNull => return [reference op]
  | _ =>
      let type ← ctx.signature i
      return takes op type.params ++ [push type.results]

/-- The jobs of an instruction. -/
def ofInstruction (ctx : Context) (i : Instruction) : Check (List Job) := do
  match i.opcode with
  | Opcode.block | Opcode.loop =>
      let type ← Check.blockSignature ctx i
      return takes i.opcode type.params ++
        (arm (i.opcode == Opcode.loop) type i.body ++ [push type.results])
  | Opcode.ifElse =>
      let type ← Check.blockSignature ctx i
      return take i.opcode .i32 :: (takes i.opcode type.params ++ (arm false type i.body ++
        push type.params :: (takes Opcode.otherwise type.params ++ (arm false type i.orElse ++
          [push type.results]))))
  | _ => ofPlain ctx i

/-- The type that a choice between two operands leaves. -/
def chosen (op : UInt8) (upper lower : ValType) : Check ValType := do
  if upper.isRef || lower.isRef then Check.refuse (.selectReference op)
  if upper = .unknown then return lower
  else if lower = .unknown ∨ upper = lower then return upper
  else Check.refuse (.selectDiffers op lower upper)

/-- Do a job, and give the jobs that it leaves to be done in its stead. -/
def step (ctx : Context) : Job → Check (List Job)
  | instruction i => ofInstruction ctx i
  | take op want => do
      discard (Check.popExpect op want)
      return []
  | drop op => do
      discard (Check.pop op)
      return []
  | reference op => do
      let type ← Check.pop op
      if type ≠ .unknown ∧ !type.isRef then Check.refuse (.notReference op type)
      return [push [.i32]]
  | upper op => do
      let type ← Check.pop op
      return [lower op type]
  | lower op above => do
      let type ← chosen op above (← Check.pop op)
      return [push [type]]
  | push types => do
      Check.push types
      return []
  | enter loop type => do
      Check.enter loop type
      return []
  | leave => do
      let c ← Check.current
      return takes Opcode.close c.results ++ [close]
  | close => do
      let c ← Check.current
      let s ← get
      if s.operands.length ≠ c.height then
        Check.refuse (.leftOver Opcode.close (s.operands.length - c.height))
      set { s with constructs := s.constructs.tail }
      return []
  | setUnreachable => do
      let c ← Check.current
      let s ← get
      if s.operands.length < c.height then Check.refuse (.outside .operand c.height)
      Check.setUnreachable
      return []
  | branchTable op labels fallback => do
      let last ← Check.label fallback
      return labels.map (target op last.labelTypes.length) ++
        (takes op last.labelTypes ++ [setUnreachable])
  | target op arity depth => do
      let c ← Check.label depth
      if c.labelTypes.length ≠ arity then
        Check.refuse (.labelArity op depth c.labelTypes.length arity)
      let s ← get
      return takes op c.labelTypes ++ [restore s.operands]
  | restore saved => do
      modify fun s => { s with operands := saved }
      return []

end Job

/-- The two stacks and the jobs that are left. -/
structure Config where
  checker : Checker
  jobs : List Job

namespace Config

variable (ctx : Context)

/-- Do the first job; there is nothing to do when none is left. -/
def step : Config → Option (Except Violation Config)
  | ⟨_, []⟩ => none
  | ⟨s, job :: rest⟩ => some ((job.step ctx s).map fun (new, s') => ⟨s', new ++ rest⟩)

/-- One step goes from one configuration to the other. -/
def Next (c d : Config) : Prop := c.step ctx = some (.ok d)

/-- The next step stops at a violation. -/
def Stops (c : Config) (v : Violation) : Prop := c.step ctx = some (.error v)

/-- Some steps go from one configuration to the other. -/
def Reaches : Config → Config → Prop := Relation.ReflTransGen (Next ctx)

/-- Some steps go from one configuration to the other, and there are at least `depth` constructs
all the while. -/
def Stays (depth : Nat) : Config → Config → Prop :=
  Relation.ReflTransGen fun c d => Next ctx c d ∧ depth ≤ d.checker.constructs.length

/-- The check of a function body, once its outermost construct is entered. -/
def start (body : List Instruction) : Config :=
  ⟨⟨[], [⟨false, [], ctx.results, 0, false⟩]⟩, body.map .instruction ++ [.leave]⟩

end Config

/-! ## Stacks in layers -/

namespace Checker

/-- The heights of the constructs, the innermost first. -/
def heights (s : Checker) : List Nat := s.constructs.map Construct.height

/-- The height of the innermost construct. -/
def height (s : Checker) : Nat := s.heights.headD 0

/-- There is a construct, none was entered at a lower height than one around it, and the operands
reach to the height of the innermost one. -/
structure Layered (s : Checker) : Prop where
  inside : s.constructs ≠ []
  descending : s.heights.Pairwise (· ≥ ·)
  filled : s.height ≤ s.operands.length

/-- The lowest `height` operands are there and the same in both states. -/
def KeepsBelow (height : Nat) (s s' : Checker) : Prop :=
  ∃ below, below.length = height ∧ below <:+ s.operands ∧ below <:+ s'.operands

/-- From one state to the next at most one construct was entered or left. -/
inductive Shifts (s s' : Checker) : Prop
  | stays : s'.heights = s.heights → Shifts s s'
  | enters : s'.heights = s.operands.length :: s.heights → Shifts s s'
  | leaves : s.heights = s.height :: s'.heights → Shifts s s'

namespace KeepsBelow

variable {height lower : Nat} {s s' s'' : Checker}

theorem refl (filled : height ≤ s.operands.length) : KeepsBelow height s s := by
  refine ⟨s.operands.drop (s.operands.length - height), ?_, List.drop_suffix _ _,
    List.drop_suffix _ _⟩
  rw [List.length_drop]
  omega

theorem trans (first : KeepsBelow height s s') (second : KeepsBelow height s' s'') :
    KeepsBelow height s s'' := by
  obtain ⟨below, length, before, middle⟩ := first
  obtain ⟨below', length', middle', after⟩ := second
  have same : below = below' :=
    (List.suffix_of_suffix_length_le middle middle' (by omega)).eq_of_length (by omega)
  exact ⟨below, length, before, same ▸ after⟩

/-- What holds of the operands below a height holds of those below a lower one. -/
theorem mono (keeps : KeepsBelow height s s') (le : lower ≤ height) : KeepsBelow lower s s' := by
  obtain ⟨below, length, before, after⟩ := keeps
  have part : below.drop (height - lower) <:+ below := List.drop_suffix _ _
  refine ⟨below.drop (height - lower), ?_, part.trans before, part.trans after⟩
  rw [List.length_drop]
  omega

end KeepsBelow

/-- The innermost construct is at the greatest height. -/
theorem Layered.le_height {s : Checker} (layered : s.Layered) {h : Nat} (mem : h ∈ s.heights) :
    h ≤ s.height := by
  have descending := layered.descending
  unfold height
  cases found : s.heights with
  | nil =>
      rw [found] at mem
      cases mem
  | cons top rest =>
      rw [found] at mem descending
      rcases List.mem_cons.mp mem with rfl | mem
      · exact Nat.le_refl _
      · exact (List.pairwise_cons.mp descending).1 h mem

theorem Layered.height_mem {s : Checker} (layered : s.Layered) : s.height ∈ s.heights := by
  unfold height
  cases found : s.heights with
  | nil => exact absurd (List.map_eq_nil_iff.mp found) layered.inside
  | cons top rest => exact List.mem_cons_self

end Checker

namespace Frame

/-- The heights of a frame are those of layered stacks. -/
def Layered (f : Frame) : Prop :=
  ((f.construct :: f.outer).map Construct.height).Pairwise (· ≥ ·)

variable {f : Frame} {operands operands' : List ValType} {unreachable unreachable' : Bool}

@[simp]
theorem height_state : (f.state operands unreachable).height = f.construct.height := rfl

theorem Layered.state (layered : f.Layered) : (f.state operands unreachable).Layered where
  inside := by simp [Frame.state]
  descending := layered
  filled := by
    rw [height_state, f.height]
    simp [Frame.state]

theorem Layered.nest (layered : f.Layered) (loop : Bool) (type : FuncType) :
    (f.nest operands unreachable loop type).Layered := by
  have top : f.construct.height ≤ (operands ++ f.below).length := by
    rw [f.height, List.length_append]
    exact Nat.le_add_left _ _
  refine List.pairwise_cons.mpr ⟨fun h mem => ?_, layered⟩
  rcases List.mem_cons.mp mem with rfl | mem
  · exact top
  · exact Nat.le_trans ((List.pairwise_cons.mp layered).1 h mem) top

theorem layered_root (ctx : Context) : (Frame.root ctx).Layered := by
  simp [Layered, Frame.root]

theorem keepsBelow : Checker.KeepsBelow f.construct.height (f.state operands unreachable)
    (f.state operands' unreachable') :=
  ⟨f.below, f.height.symm, List.suffix_append _ _, List.suffix_append _ _⟩

end Frame

/-- Layered stacks are those of a frame. -/
theorem Checker.Layered.exists_frame {s : Checker} (layered : s.Layered) :
    ∃ (f : Frame) (operands : List ValType) (unreachable : Bool),
      f.Layered ∧ s = f.state operands unreachable := by
  obtain ⟨operands, constructs⟩ := s
  cases constructs with
  | nil => exact absurd rfl layered.inside
  | cons c outer =>
      have filled : c.height ≤ operands.length := layered.filled
      have height : c.height = (operands.drop (operands.length - c.height)).length := by
        rw [List.length_drop]
        omega
      refine ⟨⟨c, operands.drop (operands.length - c.height), outer, height⟩,
        operands.take (operands.length - c.height), c.unreachable, layered.descending, ?_⟩
      simp [Frame.state]

end WasmMachine.Typing
