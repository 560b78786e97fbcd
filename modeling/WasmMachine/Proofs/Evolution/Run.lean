/-
# Running code changes the store step by step

Whatever code runs, with whatever host functions it meets and however it ends, the store
comes about from the one before by the changes that plain instructions make.  Nothing is
asked of the code: neither that it is typed, nor that host functions keep their promises,
nor that they stay away from the machine.  Each function of the machine does so with some
fuel when those it calls do so with less.

Running code traps or uses up its fuel, but it is never refused: only an invocation is, for
its arguments, and a host function that invokes something gets the refusal as an outcome.
-/

import WasmMachine.Machine.Run
import WasmMachine.Proofs.Evolution.Plain
import WasmMachine.Proofs.Safety.Execution

namespace WasmMachine.Run

variable {α β : Type}

/-- An action that changes the store in the way that running code does, whether it ends or
stops, and that is not refused. -/
def Evolving (action : Run α) : Prop :=
  ∀ m : Machine,
    Ends action m (fun _ m' => m.store.Evolves m'.store)
      fun stop m' => m.store.Evolves m'.store ∧ ∀ r, stop ≠ .refused r

/-- An invocation that does so, and is refused only for its arguments. -/
def Invoking (addr : Addr) (args : List (Option Value)) (action : Run α) : Prop :=
  ∀ m : Machine,
    Ends action m (fun _ m' => m.store.Evolves m'.store)
      fun stop m' => m.store.Evolves m'.store ∧ ∀ r, stop = .refused r →
        ∀ f, m.store.funcs[addr]? = some f → Value.matchTypes args f.type.params = false

/-! ## Putting actions together -/

namespace Evolving

variable {action : Run α} {next : α → Run β}

theorem pure (a : α) : Evolving (Pure.pure a) := fun m => Ends.pure (.refl m.store)

theorem trap (t : Trap) : Evolving (Run.trap t : Run α) :=
  fun m => Ends.throw ⟨.refl m.store, by simp⟩

theorem outOfFuel : Evolving (throw .outOfFuel : Run α) :=
  fun m => Ends.throw ⟨.refl m.store, by simp⟩

theorem bind (first : Evolving action) (rest : ∀ a, Evolving (next a)) :
    Evolving (action >>= next) := fun m =>
  Ends.bind (first m) fun a m' evolves =>
    Ends.mono (rest a m') (fun _ _ later => evolves.trans later)
      fun _ _ later => ⟨evolves.trans later.1, later.2⟩

/-- What comes next may look at the machine. -/
theorem get : Evolving (get : Run Machine) := fun m => Ends.of_ok rfl (.refl m.store)

theorem modifyStack (f : Stack → Stack) : Evolving (Run.modifyStack f) :=
  fun m => Ends.of_ok rfl (.refl m.store)

/-- A step makes one change at most. -/
theorem step {action : Step α} (writes : ∀ st, Step.Writes st action) :
    Evolving (Run.step action) := by
  rintro ⟨store, ⟨operands, levels, base, h⟩, frame, depth, options, names, records⟩
  have ends := writes store ⟨operands, frame, store⟩ rfl
  unfold Ends at ends ⊢
  unfold Run.step
  simp only
  cases ran : action ⟨operands, frame, store⟩ with
  | ok a s =>
      rw [ran] at ends
      rcases ends with same | change
      · exact same ▸ .refl store
      · exact .of_change change
  | error t s =>
      rw [ran] at ends
      exact ⟨ends.store ▸ .refl store, by simp⟩

end Evolving

/-! ## The stack -/

theorem height_evolving : Evolving height := by
  unfold height
  exact Evolving.get.bind fun m => .pure _

theorem popValues_evolving (n : Nat) : Evolving (popValues n) := by
  unfold popValues
  refine Evolving.get.bind fun m => ?_
  split
  · exact (Evolving.modifyStack _).bind fun _ => .pure _
  · exact .trap _

theorem unwind_evolving (position arity : Nat) : Evolving (unwind position arity) := by
  unfold unwind
  refine (popValues_evolving arity).bind fun values => ?_
  refine height_evolving.bind fun _ => ?_
  split
  · exact (Evolving.trap _).bind fun _ => .modifyStack _
  · exact .modifyStack _

theorem endLabel_evolving (position count : Nat) : Evolving (endLabel position count) := by
  unfold endLabel
  refine (popValues_evolving count).bind fun values => ?_
  refine Evolving.get.bind fun m => ?_
  split
  · exact (Evolving.trap _).bind fun _ => .modifyStack _
  · exact .modifyStack _

theorem branch_evolving (depth : Nat) : Evolving (branch depth) := by
  unfold branch
  refine Evolving.get.bind fun m => ?_
  split
  · exact .trap _
  · exact (unwind_evolving _ _).bind fun _ => .pure _

theorem leave_evolving : Evolving leave := by
  unfold leave
  refine Evolving.get.bind fun m => ?_
  split
  · exact .trap _
  · exact (unwind_evolving _ _).bind fun _ => .pure _

/-! ## Looking things up -/

theorem blockSignature_evolving (i : Instruction) : Evolving (blockSignature i) := by
  unfold blockSignature
  split
  · exact .trap _
  · refine Evolving.get.bind fun m => ?_
    simp only
    split
    · exact .pure _
    · exact .trap _

theorem namedExport_evolving (inst func : String) : Evolving (namedExport inst func) := by
  unfold namedExport
  refine Evolving.get.bind fun m => ?_
  split
  · exact .pure _
  · split
    · exact .pure _
    · exact .pure _

theorem callTarget_writes (index : UInt32) (st : Store) : Step.Writes st (callTarget index) := by
  unfold callTarget
  refine Step.home_quiet.before fun inst _ => ?_
  split
  · exact .pure _
  · exact .throw _

theorem indirectTarget_writes (typeIndex tableIndex : UInt32) (st : Store) :
    Step.Writes st (indirectTarget typeIndex tableIndex) := by
  unfold indirectTarget
  refine Step.home_quiet.before fun inst _ => ?_
  split
  · exact .throw _
  · refine (Step.address_quiet _ _ tableIndex).before fun addr _ => ?_
    refine (Step.fetch_quiet _ _ addr).before fun table _ => ?_
    refine Step.popI32_quiet.before fun i _ => ?_
    split
    · exact .throw _
    · refine Step.get_quiet.before fun s _ => ?_
      split
      · exact .throw _
      · exact .guard fun _ => .pure _
    · exact .throw _

theorem popI32_evolving : Evolving (step Step.popI32) := .step fun _ => Step.popI32_quiet.writes

/-! ## Everything that runs code -/

/-- With an amount of fuel, everything that runs code changes the store as running code
does. -/
structure AllEvolving (fuel : Nat) : Prop where
  sequence : ∀ is, Evolving (sequence fuel is)
  instruction : ∀ i, Evolving (instruction fuel i)
  construct : ∀ label type body loop, Evolving (construct fuel label type body loop)
  call : ∀ addr, Evolving (call fuel addr)
  function : ∀ f, Evolving (function fuel f)
  code : ∀ f, Evolving (code fuel f)
  framed : ∀ frame body, Evolving (framed fuel frame body)
  host : ∀ program, Evolving (host fuel program)
  attempt : ∀ addr args, Evolving (attempt fuel addr args)
  invoke : ∀ addr args, Invoking addr args (invoke fuel addr args)

namespace AllEvolving

/-- Without fuel nothing is done. -/
theorem zero : AllEvolving 0 where
  sequence _ := by
    rw [Run.sequence]
    exact .outOfFuel
  instruction _ := by
    rw [Run.instruction]
    exact .outOfFuel
  construct _ _ _ _ := by
    rw [Run.construct]
    exact .outOfFuel
  call _ := by
    rw [Run.call]
    exact .outOfFuel
  function _ := by
    rw [Run.function]
    exact .outOfFuel
  code _ := by
    rw [Run.code]
    exact .outOfFuel
  framed _ _ := by
    rw [Run.framed]
    exact .outOfFuel
  host _ := by
    rw [Run.host]
    exact .outOfFuel
  attempt _ _ := by
    rw [Run.attempt]
    exact .outOfFuel
  invoke _ _ := by
    rw [Run.invoke]
    exact fun m => Ends.throw ⟨.refl m.store, by simp⟩

variable {fuel : Nat}

theorem sequence_succ (all : AllEvolving fuel) (is : List Instruction) :
    Evolving (Run.sequence (fuel + 1) is) := by
  cases is with
  | nil =>
      rw [Run.sequence]
      exact .pure _
  | cons i rest =>
      rw [Run.sequence]
      refine (all.instruction i).bind fun exit => ?_
      split
      · exact all.sequence rest
      · exact .pure _

theorem instruction_succ (all : AllEvolving fuel) (i : Instruction) :
    Evolving (Run.instruction (fuel + 1) i) := by
  rw [Run.instruction]
  split
  · exact (blockSignature_evolving i).bind fun type => all.construct _ _ _ _
  · exact (blockSignature_evolving i).bind fun type => all.construct _ _ _ _
  · refine popI32_evolving.bind fun condition => ?_
    exact (blockSignature_evolving i).bind fun type => all.construct _ _ _ _
  · exact branch_evolving _
  · refine popI32_evolving.bind fun condition => ?_
    split
    · exact .pure _
    · exact branch_evolving _
  · exact popI32_evolving.bind fun index => branch_evolving _
  · exact leave_evolving
  · refine (Evolving.step (callTarget_writes _)).bind fun addr => ?_
    exact (all.call addr).bind fun _ => .pure _
  · refine (Evolving.step (indirectTarget_writes _ _)).bind fun addr => ?_
    exact (all.call addr).bind fun _ => .pure _
  · refine Evolving.get.bind fun m => ?_
    exact (Evolving.step fun _ => Step.plain_writes _ i).bind fun _ => .pure _

theorem construct_succ (all : AllEvolving fuel) (label : Label) (type : FuncType)
    (body : List Instruction) (loop : Bool) :
    Evolving (Run.construct (fuel + 1) label type body loop) := by
  rw [Run.construct]
  refine (popValues_evolving _).bind fun args => ?_
  refine height_evolving.bind fun position => ?_
  refine (Evolving.modifyStack _).bind fun _ => ?_
  refine (all.sequence body).bind fun exit => ?_
  split
  · exact (endLabel_evolving _ _).bind fun _ => .pure _
  · exact .pure _
  · exact .pure _
  · split
    · exact all.construct _ _ _ _
    · exact .pure _

theorem call_succ (all : AllEvolving fuel) (addr : Addr) :
    Evolving (Run.call (fuel + 1) addr) := by
  intro m
  unfold Ends
  rw [Run.call]
  cases found : m.store.funcs[addr]? with
  | none =>
      simp only [found]
      exact ⟨.refl m.store, by simp⟩
  | some f =>
      have ends := all.function f { m with depth := m.depth + 1 }
      unfold Ends at ends
      simp only [found]
      by_cases deep : m.options.callLimit ≤ m.depth
      · rw [if_pos deep]
        exact ⟨.refl m.store, by simp⟩
      · rw [if_neg deep]
        split at ends
        · next ran =>
            simp only [ran]
            exact ends
        · next ran =>
            simp only [ran]
            exact ends

theorem function_succ (all : AllEvolving fuel) (f : FuncInst) :
    Evolving (Run.function (fuel + 1) f) := by
  cases f with
  | code f =>
      rw [Run.function]
      exact all.code f
  | host f =>
      rw [Run.function]
      refine (popValues_evolving _).bind fun args => ?_
      refine (all.host _).bind fun outcome => ?_
      split
      · exact .trap _
      · split
        · exact .modifyStack _
        · exact .trap _

theorem code_succ (all : AllEvolving fuel) (f : Code) : Evolving (Run.code (fuel + 1) f) := by
  rw [Run.code]
  refine (popValues_evolving _).bind fun args => ?_
  split
  · exact .trap _
  · refine height_evolving.bind fun position => ?_
    refine (all.framed _ _).bind fun exit => ?_
    split
    · exact .pure _
    · exact .trap _
    · exact unwind_evolving _ _
    · exact unwind_evolving _ _

theorem framed_succ (all : AllEvolving fuel) (frame : Frame) (body : List Instruction) :
    Evolving (Run.framed (fuel + 1) frame body) := by
  intro m
  have ends := all.sequence body { m with
    stack := (m.stack.mark (.frame frame.arity frame.locals.size)).mark (.label ⟨frame.arity, []⟩)
    frame := some frame }
  unfold Ends at ends ⊢
  rw [Run.framed]
  split at ends
  · next ran =>
      simp only [ran]
      exact ends
  · next ran =>
      simp only [ran]
      exact ends

theorem host_succ (all : AllEvolving fuel) (program : HostProgram) :
    Evolving (Run.host (fuel + 1) program) := by
  cases program with
  | finish results =>
      rw [Run.host]
      exact .pure _
  | fail fault =>
      rw [Run.host]
      exact .pure _
  | record entry next =>
      rw [Run.host]
      intro m
      exact Ends.step rfl (all.host next _)
  | keep name values next =>
      rw [Run.host]
      refine Evolving.bind (fun m => ?_) fun _ => all.host next
      exact .of_change (.keep name values)
  | retrieve name next =>
      rw [Run.host]
      intro m
      exact Ends.step rfl (all.host _ m)
  | view inst memory request next =>
      rw [Run.host]
      refine Evolving.bind (fun m => ?_) fun answer => all.host (next answer)
      exact .of_viewed (m.store.useView_viewed m.names inst memory request)
  | callExport inst func args next =>
      rw [Run.host]
      refine (namedExport_evolving inst func).bind fun found => ?_
      split
      · exact all.host _
      · exact (all.attempt _ _).bind fun outcome => all.host _

theorem attempt_succ (all : AllEvolving fuel) (addr : Addr) (args : List (Option Value)) :
    Evolving (Run.attempt (fuel + 1) addr args) := by
  intro m
  have ends := all.invoke addr args m
  unfold Ends at ends ⊢
  rw [Run.attempt]
  split at ends
  · next ran =>
      simp only [ran]
      exact ends
  · next stop m' ran =>
      simp only [ran]
      cases stop with
      | trap t => exact ends.1
      | refused r => exact ends.1
      | outOfFuel => exact ⟨ends.1, by simp⟩

theorem invoke_succ (all : AllEvolving fuel) (addr : Addr) (args : List (Option Value)) :
    Invoking addr args (Run.invoke (fuel + 1) addr args) := by
  intro m
  have ends := all.call addr { m with stack := m.stack.pushValues (args.filterMap id) }
  unfold Ends at ends ⊢
  rw [Run.invoke]
  cases found : m.store.funcs[addr]? with
  | none =>
      simp only [found, Option.map_none]
      exact ⟨.refl m.store, by simp⟩
  | some f =>
      simp only [found, Option.map_some]
      cases matched : Value.matchTypes args f.type.params with
      | false =>
          refine ⟨.refl m.store, fun _ _ f' known => ?_⟩
          cases known
          exact matched
      | true =>
          simp only [Bool.not_true, Bool.false_eq_true, if_false]
          split at ends
          · next m' ran =>
              simp only [ran]
              cases m'.stack.popValues? f.type.results.length with
              | none => exact ⟨ends, by simp⟩
              | some popped =>
                  simp only
                  by_cases level : popped.2.length = m.stack.length
                  · rw [if_pos level]
                    exact ends
                  · rw [if_neg level]
                    exact ⟨ends, by simp⟩
          · next stop m' ran =>
              simp only [ran]
              cases stop with
              | trap t => exact ⟨ends.1, by simp⟩
              | refused r => exact absurd rfl (ends.2 r)
              | outOfFuel => exact ⟨ends.1, by simp⟩

end AllEvolving

theorem allEvolving (fuel : Nat) : AllEvolving fuel := by
  induction fuel with
  | zero => exact .zero
  | succ fuel ih =>
      exact {
        sequence := ih.sequence_succ
        instruction := ih.instruction_succ
        construct := ih.construct_succ
        call := ih.call_succ
        function := ih.function_succ
        code := ih.code_succ
        framed := ih.framed_succ
        host := ih.host_succ
        attempt := ih.attempt_succ
        invoke := ih.invoke_succ }

/-- However an invocation ends, the store has come about by the changes that plain
instructions make; and it is refused only for its arguments. -/
theorem invoke_evolves (fuel : Nat) (addr : Addr) (args : List (Option Value)) :
    Invoking addr args (invoke fuel addr args) := (allEvolving fuel).invoke addr args

end WasmMachine.Run
