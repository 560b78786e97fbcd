/-
# An instruction that stops has done nothing

Constructs and calls run other code, and what that code did before it trapped stays done.
Every other instruction checks first and writes last, whatever the stack holds and whether or
not the code was ever checked: one that stops has at most taken operands.  The steps of the
machine fall into two sorts, those that only move entries of the stack and those that may
write at their end, and each instruction is steps of the first sort with one step behind them.
-/

import WasmMachine.Embedding.Basic
import WasmMachine.Proofs.Evolution.Plain

namespace WasmMachine

/-- Two machines that differ at most in their stacks. -/
def Machine.SameButStack (m m' : Machine) : Prop := m' = { m with stack := m'.stack }

namespace Machine.SameButStack

variable {m m' m'' : Machine}

theorem refl (m : Machine) : m.SameButStack m := rfl

theorem trans (first : m.SameButStack m') (second : m'.SameButStack m'') : m.SameButStack m'' := by
  unfold SameButStack at *
  rw [second, first]

end Machine.SameButStack

namespace Run

variable {α β : Type}

/-- An action that moves entries of the stack and does nothing else, whether it ends or
stops. -/
def OnStack (action : Run α) : Prop :=
  ∀ m : Machine, Ends action m (fun _ m' => m.SameButStack m') fun _ m' => m.SameButStack m'

/-- An action that has done nothing but move entries of the stack when it stops. -/
def Clean (action : Run α) : Prop :=
  ∀ m : Machine, Ends action m (fun _ _ => True) fun _ m' => m.SameButStack m'

/-! ## Putting actions together -/

namespace OnStack

variable {action : Run α} {next : α → Run β}

theorem pure (a : α) : OnStack (Pure.pure a) := fun m => Ends.pure (.refl m)

theorem throw (stop : Stop) : OnStack (MonadExcept.throw stop : Run α) :=
  fun m => Ends.throw (.refl m)

theorem get : OnStack (get : Run Machine) := fun m => Ends.of_ok rfl (.refl m)

theorem modifyStack (f : Stack → Stack) : OnStack (Run.modifyStack f) :=
  fun _ => Ends.of_ok rfl rfl

theorem bind (first : OnStack action) (rest : ∀ a, OnStack (next a)) :
    OnStack (action >>= next) := fun m =>
  Ends.bind (first m) fun a m' same =>
    Ends.mono (rest a m') (fun _ _ later => same.trans later) fun _ _ later => same.trans later

theorem clean (onStack : OnStack action) : Clean action := fun m =>
  Ends.mono (onStack m) (fun _ _ _ => trivial) fun _ _ => id

/-- What comes behind an action that only moves entries of the stack. -/
theorem before (first : OnStack action) (rest : ∀ a, Clean (next a)) : Clean (action >>= next) :=
  fun m => Ends.bind (first m) fun a m' same =>
    Ends.mono (rest a m') (fun _ _ => id) fun _ _ later => same.trans later

/-- A step that leaves the frame and the store alone. -/
theorem step {action : Step α} {Good : α → Prop} (quiet : ∀ st, Step.Quiet st action Good) :
    OnStack (Run.step action) := by
  rintro ⟨store, ⟨operands, levels, base, h⟩, frame, depth, options, names, records⟩
  have ends := quiet store ⟨operands, frame, store⟩ rfl
  unfold Ends at ends ⊢
  unfold Run.step
  simp only
  cases ran : action ⟨operands, frame, store⟩ with
  | ok a s =>
      rw [ran] at ends
      obtain ⟨⟨rfl, rfl⟩, -⟩ := ends
      rfl
  | error t s =>
      rw [ran] at ends
      obtain ⟨rfl, rfl⟩ := ends
      rfl

end OnStack

/-- A step that may write, followed by nothing that can stop. -/
theorem Clean.step {action : Step α} (writes : ∀ st, Step.Writes st action) (b : β) :
    Clean (Run.step action >>= fun _ => Pure.pure b) := by
  rintro ⟨store, ⟨operands, levels, base, h⟩, frame, depth, options, names, records⟩
  have ends := writes store ⟨operands, frame, store⟩ rfl
  unfold Ends at ends ⊢
  simp only [Bind.bind, EStateM.bind, Run.step]
  cases ran : action ⟨operands, frame, store⟩ with
  | ok a s => exact trivial
  | error t s =>
      rw [ran] at ends
      obtain ⟨rfl, rfl⟩ := ends
      rfl

/-! ## Transfers of control -/

theorem popValues_onStack (n : Nat) : OnStack (popValues n) := by
  unfold popValues
  refine OnStack.get.bind fun m => ?_
  split
  · exact (OnStack.modifyStack _).bind fun _ => .pure _
  · exact .throw _

theorem unwind_onStack (position arity : Nat) : OnStack (unwind position arity) := by
  unfold unwind
  refine (popValues_onStack arity).bind fun values => ?_
  refine (OnStack.get.bind fun m => .pure m.stack.length).bind fun height => ?_
  split
  · exact (OnStack.throw _).bind fun _ => .modifyStack _
  · exact .modifyStack _

theorem branch_onStack (depth : Nat) : OnStack (branch depth) := by
  unfold branch
  refine OnStack.get.bind fun m => ?_
  split
  · exact .throw _
  · exact (unwind_onStack _ _).bind fun _ => .pure _

theorem leave_onStack : OnStack leave := by
  unfold leave
  refine OnStack.get.bind fun m => ?_
  split
  · exact .throw _
  · exact (unwind_onStack _ _).bind fun _ => .pure _

theorem popI32_onStack : OnStack (step Step.popI32) := .step fun _ => Step.popI32_quiet

/-! ## All instructions -/

/-- The instructions that run other code. -/
def codeRunners : List UInt8 :=
  [Opcode.block, Opcode.loop, Opcode.ifElse, Opcode.call, Opcode.callIndirect]

/-- An instruction that runs no other code is clean. -/
theorem instruction_clean (fuel : Nat) {i : Instruction} (alone : i.opcode ∉ codeRunners) :
    Clean (instruction fuel i) := by
  cases fuel with
  | zero =>
      rw [instruction]
      exact (OnStack.throw _).clean
  | succ fuel =>
      rw [instruction]
      split
      · next same => exact absurd (same ▸ by decide) alone
      · next same => exact absurd (same ▸ by decide) alone
      · next same => exact absurd (same ▸ by decide) alone
      · exact (branch_onStack _).clean
      · refine OnStack.clean (popI32_onStack.bind fun condition => ?_)
        split
        · exact .pure _
        · exact branch_onStack _
      · exact (popI32_onStack.bind fun index => branch_onStack _).clean
      · exact leave_onStack.clean
      · next same => exact absurd (same ▸ by decide) alone
      · next same => exact absurd (same ▸ by decide) alone
      · exact OnStack.get.before fun m => .step (fun _ => Step.plain_writes _ i) _

/-- An instruction that runs no other code has no effect when it stops: the store, with its
memories, tables, globals and segments, and the running frame, with its local variables, are
as they were. -/
theorem instruction_untouched {fuel : Nat} {i : Instruction} {m m' : Machine} {stop : Stop}
    (alone : i.opcode ∉ codeRunners) (stopped : instruction fuel i m = .error stop m') :
    m'.store = m.store ∧ m'.frame = m.frame := by
  have same : m' = { m with stack := m'.stack } := (instruction_clean fuel alone m).bad stopped
  rw [same]
  exact ⟨rfl, rfl⟩

/-- Copy within the first table. -/
def copyTable : Instruction := .plain Opcode.misc (some (.misc 14 [0, 0]))

/-- A machine with a table of two entries, about to copy both of them one entry further. -/
def copyingMachine : Machine :=
  let fresh := (Embedding.new {}).linker.machine
  { fresh with
    store :=
      { tables := #[⟨⟨.funcref, ⟨2, none⟩⟩, #[.func 7, .func 8]⟩]
        instances := #[{ tables := #[0] }] }
    stack := { fresh.stack with operands := [.i32 2, .i32 0, .i32 1] }
    frame := some ⟨some 0, #[.i32 5], 0⟩ }

set_option maxRecDepth 20000 in
/-- The entries to be copied are there, but there is no room for the second: the copy traps
behind three operands, and the first entry has not been written either. -/
theorem instruction_untouched_copying :
    copyTable.opcode ∉ codeRunners ∧
      ∃ m', instruction 1 copyTable copyingMachine = .error (.trap .tableBounds) m' ∧
        m'.stack.operands = [] ∧ m'.store = copyingMachine.store ∧
        m'.frame = copyingMachine.frame := by
  have alone : copyTable.opcode ∉ codeRunners := by decide
  obtain ⟨m', stopped, taken⟩ : ∃ m',
      instruction 1 copyTable copyingMachine = .error (.trap .tableBounds) m' ∧
        m'.stack.operands = [] := ⟨_, rfl, rfl⟩
  exact ⟨alone, m', stopped, taken, instruction_untouched alone stopped⟩

end Run

end WasmMachine
