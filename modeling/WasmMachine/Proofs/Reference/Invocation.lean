/-
# Invocations leave no trace

An invocation ends on the stack, in the frame and at the depth it began with, whatever
code it ran, and gives as many values as its function declares.  A failure is a refusal
of the request, before anything was done, or a trap.

The machine checks some things again where control moves: that the label of a construct
is still in place at its end, that an unwinding goes down and not up, that no branch
leaves its function, that a call leaves exactly its results.  None of these checks can
fail, in whatever state the machine is: each action does the same without them.  What
they guard against is excluded by the levels under every body being those it was
entered on.
-/

import WasmMachine.Proofs.Reference.Refinement

namespace WasmMachine

/-- The fault of a trap is recognised as one, whatever its cause. -/
theorem Trap.isLike_toFault (t : Trap) : t.toFault.isLike (.bare Phase.runtime "trap") = true := by
  unfold Trap.toFault Fault.isLike Fault.bare
  cases t.cause? with
  | none => rfl
  | some cause =>
      simp only [Fault.hasKind]
      rfl

/-- Keep the topmost `count` values and drop everything else from a height up, without
a look at what is there. -/
def Run.replaceAbove (height count : Nat) : Run Unit := do
  let values ← popValues count
  modifyStack fun s => (s.truncate height).pushValues values

/-- The checks that the machine makes where control moves always pass. -/
structure Run.ChecksPass : Prop where
  /-- At the end of a construct its own label is at the height where it was put, so that
  only results can be missing. -/
  endLabel : ∀ (fuel : Nat) (m m' : Machine) (label : Label) (args : List Value)
    (body : List Instruction) (count : Nat),
    Run.sequence fuel body
      { m with stack := (m.stack.mark (.label label)).pushValues args } = .ok .normal m' →
    m'.stack.levels = ⟨.label label, m.stack.operands⟩ :: m.stack.levels ∧
      m'.stack.labelAtPosition? m.stack.length = some label ∧
      Run.endLabel m.stack.length count m' = Run.replaceAbove m.stack.length count m'
  /-- A branch goes down to the label that it found. -/
  branch : ∀ (m : Machine) (label : Label) (depth position : Nat),
    m.stack.label? depth = some (label, position) →
    Run.unwind position label.arity m = Run.replaceAbove position label.arity m
  /-- A return goes down to the frame that it found. -/
  leave : ∀ (m : Machine) (arity locals position : Nat),
    m.stack.frame? = some ((arity, locals), position) →
    Run.unwind position arity m = Run.replaceAbove position arity m
  /-- No branch goes further out than the body of a function, and what is above the
  height at which the body was entered is what the body left. -/
  code : ∀ (fuel : Nat) (m m' : Machine) (frame : Frame) (body : List Instruction) (exit : Exit),
    Run.framed fuel frame body m = .ok exit m' →
    (∀ depth, exit ≠ .branch (depth + 1)) ∧
      (exit ≠ .returned → ∀ count,
        Run.unwind m.stack.length count m' = Run.replaceAbove m.stack.length count m')
  /-- Behind a call that an invocation makes there are exactly its results on the stack
  that it found. -/
  invoke : ∀ (fuel : Nat) (m m' : Machine) (addr : Addr) (f : FuncInst)
    (args : List (Option Value)),
    m.store.funcs[addr]? = some f → Value.matchTypes args f.type.params = true →
    Run.call fuel addr { m with stack := m.stack.pushValues (args.filterMap id) } = .ok () m' →
    ∃ results, m'.stack.popValues? f.type.results.length = some (results, m.stack)

/-- The machine is as before, but for the store and the records of host functions. -/
structure Machine.Restored (before after : Machine) : Prop where
  stack : after.stack = before.stack
  frame : after.frame = before.frame
  depth : after.depth = before.depth

namespace Reference

/-! ## Checks -/

/-- Taking values off leaves what is below the operands at hand. -/
theorem popValues_keeps {n : Nat} {m m' : Machine} {values : List Value}
    (popped : Run.popValues n m = .ok values m') :
    m'.stack.levels = m.stack.levels ∧ m'.stack.base = m.stack.base := by
  simp only [Run.popValues, Stack.popValues?, bind, EStateM.bind, get_eq] at popped
  by_cases enough : n ≤ m.stack.operands.length
  · rw [if_pos enough] at popped
    cases popped
    exact ⟨rfl, rfl⟩
  · rw [if_neg enough] at popped
    cases popped

/-- Unwinding to a height below the operands at hand needs no check. -/
theorem unwind_eq_replaceAbove {height : Nat} {m : Machine} (low : height ≤ m.stack.base)
    (count : Nat) : Run.unwind height count m = Run.replaceAbove height count m := by
  simp only [Run.unwind, Run.replaceAbove, bind, EStateM.bind]
  cases popped : Run.popValues count m with
  | error stop m' => rfl
  | ok values m' =>
      have high : ¬ m'.stack.length < height := by
        rw [Stack.length, (popValues_keeps popped).2]
        omega
      simp only [Run.height, bind, EStateM.bind, get_eq, pure, EStateM.pure, high, if_false]

/-- The end of a construct whose label is in place needs no check. -/
theorem endLabel_eq_replaceAbove {position : Nat} {m : Machine} {label : Label}
    (there : m.stack.labelAtPosition? position = some label) (count : Nat) :
    Run.endLabel position count m = Run.replaceAbove position count m := by
  simp only [Run.endLabel, Run.replaceAbove, bind, EStateM.bind]
  cases popped : Run.popValues count m with
  | error stop m' => rfl
  | ok values m' =>
      obtain ⟨levels, base⟩ := popValues_keeps popped
      have still : m'.stack.labelAtPosition? position = some label := by
        rwa [Stack.labelAtPosition?, levels, base]
      simp only [get_eq, still]
      rfl

/-- The marker of a place is below the operands at hand. -/
theorem position_le_base {s : Stack} {outer : List Level} {l : Level} (inner : List Level)
    (levels : s.levels = inner ++ l :: outer) : l.position outer ≤ s.base := by
  rw [s.base_eq, levels, Level.count_append, Level.count_cons]
  omega

/-- A marker that is put on a stack is at its height. -/
theorem length_eq_position (s : Stack) (marker : Marker) :
    s.length = (⟨marker, s.operands⟩ : Level).position s.levels := by
  rw [Stack.length, Level.position, s.base_eq]

/-- Instructions that fall through leave the levels as they were. -/
theorem levels_of_sequence {fuel : Nat} {is : List Instruction} {m m' : Machine}
    (ran : Run.sequence fuel is m = .ok .normal m') : m'.stack.levels = m.stack.levels := by
  have agree := (allAgree fuel).sequence (.ofMachine m) m.stack.levels is
    ⟨m.stack.operands, m.frame, m.store, m.records⟩
  rw [machine_eq, ran] at agree
  obtain ⟨signal, s, -, meets⟩ := agree.exists_of_ok
  cases meets with
  | normal => rfl

end Reference

open Reference in
/-- The checks pass because the levels under a body are those it was entered on. -/
theorem Run.checksPass : Run.ChecksPass where
  endLabel := by
    intro fuel m m' label args body count ran
    have levels : m'.stack.levels = ⟨.label label, m.stack.operands⟩ :: m.stack.levels :=
      levels_of_sequence ran
    have base : m'.stack.base = m.stack.length + 1 := by
      rw [m'.stack.base_eq, levels, Level.count_cons, length_eq_position]
    have there : m'.stack.labelAtPosition? m.stack.length = some label := by
      rw [Stack.labelAtPosition?, levels, base, Stack.labelAtAmong?, if_pos (by omega)]
    exact ⟨levels, there, endLabel_eq_replaceAbove there count⟩
  branch := by
    intro m label depth position found
    have searched := Level.labelAmong_count m.stack.levels depth
    rw [← m.stack.base_eq] at searched
    rw [Stack.label?] at found
    rw [found] at searched
    obtain ⟨place, there, same⟩ := Option.map_eq_some_iff.mp searched.symm
    obtain ⟨inner, split⟩ := Level.exists_of_mem_labels (List.mem_of_getElem? there)
    obtain ⟨-, rfl⟩ := Prod.mk.inj same
    exact unwind_eq_replaceAbove (position_le_base inner split) label.arity
  leave := by
    intro m arity locals position found
    have searched := Level.frameAmong_count m.stack.levels
    rw [← m.stack.base_eq] at searched
    rw [Stack.frame?] at found
    rw [found] at searched
    obtain ⟨place, there, same⟩ := Option.map_eq_some_iff.mp searched.symm
    obtain ⟨inner, split⟩ := Level.exists_of_frame there
    obtain ⟨-, rfl⟩ := Prod.mk.inj same
    exact unwind_eq_replaceAbove (position_le_base inner split) arity
  code := by
    intro fuel m m' frame body exit ran
    have agree := (allAgree fuel).framed (.ofMachine m) frame body (.ofMachine m) m.frame
      m.stack.operands m.stack.levels
    have whole := machine_eq [] none m
    rw [State.ofMachine, whole, ran] at agree
    obtain ⟨⟨signal, left⟩, s, -, inner, innermost, meets, -, -, rfl⟩ := agree.exists_of_ok
    cases meets with
    | normal =>
        refine ⟨by simp, fun _ => unwind_eq_replaceAbove ?_⟩
        rw [length_eq_position m.stack (.frame frame.arity frame.locals.size)]
        exact position_le_base [⟨.label ⟨frame.arity, []⟩, []⟩] rfl
    | returned => exact ⟨by simp, fun back => absurd rfl back⟩
    | @branch _ place depth values known count =>
        cases depth with
        | succ depth => cases known
        | zero =>
            cases known
            refine ⟨by simp, fun _ => unwind_eq_replaceAbove ?_⟩
            rw [length_eq_position m.stack (.frame frame.arity frame.locals.size)]
            exact position_le_base [] rfl
  invoke := by
    intro fuel m m' addr f args held matched ran
    have agree := (allAgree fuel).call (.ofMachine m) addr
      ⟨(args.filterMap id).reverse, none, m.store, m.records⟩ m.frame m.stack.operands
      m.stack.levels
    have count : (args.filterMap id).reverse.length = f.type.params.length :=
      List.length_reverse.trans (length_of_matchTypes matched)
    have loaded := machine_eq (args.filterMap id).reverse none
      { m with stack := m.stack.pushValues (args.filterMap id) }
    have enough : ∀ g, m.store.funcs[addr]? = some g → m.stack.operands = [] ∨
        g.type.params.length ≤ (args.filterMap id).reverse.length := by
      intro g held'
      cases held.symm.trans held'
      exact .inr (Nat.le_of_eq count.symm)
    have called := agree enough
    have same : (⟨(args.filterMap id).reverse, none, m.store, m.records⟩ : State).machine
        (.ofMachine m) m.frame ((args.filterMap id).reverse ++ m.stack.operands) m.stack.levels =
        { m with stack := m.stack.pushValues (args.filterMap id) } := loaded
    rw [same, ran] at called
    obtain ⟨_, s, -, g, held', rfl, -, results, values, length⟩ := called.exists_of_ok
    cases held.symm.trans held'
    have nothing : (args.filterMap id).reverse.drop f.type.params.length = [] :=
      List.drop_eq_nil_of_le (Nat.le_of_eq count)
    rw [nothing, List.append_nil] at values
    have same : m.stack = .of m.stack.operands m.stack.levels := Stack.eq_of rfl rfl
    refine ⟨results.reverse, ?_⟩
    rw [← length, values, same]
    exact Stack.popValues?_append rfl

/-- However an invocation ends, the stack, the frame and the depth are as before. -/
theorem Run.invoke_restored (fuel : Nat) (addr : Addr) (args : List (Option Value)) (m : Machine) :
    Ends (Run.invoke fuel addr args) m (fun _ m' => m.Restored m')
      fun stop m' => stop ≠ .outOfFuel → m.Restored m' := by
  have agree := Reference.invoke_agree m fuel addr args
  unfold Ends
  generalize Reference.invoke fuel _ addr args _ = outcome, Run.invoke fuel addr args m = outcome'
    at agree ⊢
  cases agree with
  | ok good =>
      obtain ⟨rfl, rfl, -⟩ := good
      exact ⟨rfl, rfl, rfl⟩
  | stop known =>
      intro fueled
      obtain ⟨rfl, -⟩ := known fueled
      exact ⟨rfl, rfl, rfl⟩

/-- However an invocation ends, the stack, the frame and the depth are as before. A
success carries as many values as the function declares; a failure is a refusal, which
changed nothing, or a trap. No check that the machine makes where control moves can be
what failed. -/
theorem Run.invoke_restores :
    (∀ (fuel : Nat) (m : Machine) (addr : Addr) (args : List (Option Value)),
      match Run.invoke fuel addr args m with
      | .ok results m' =>
          m.Restored m' ∧
            ∃ f, m.store.funcs[addr]? = some f ∧ results.length = f.type.results.length
      | .error (.trap t) m' =>
          m.Restored m' ∧ t.toFault.isLike (.bare Phase.runtime "trap") = true
      | .error (.refused r) m' =>
          m' = m ∧ r.toFault.isLike (.bare Phase.runtime "invalid_input") = true
      | .error .outOfFuel _ => True) ∧
    Run.ChecksPass := by
  refine ⟨fun fuel m addr args => ?_, Run.checksPass⟩
  have agree := Reference.invoke_agree m fuel addr args
  generalize Reference.invoke fuel _ addr args _ = outcome, Run.invoke fuel addr args m = outcome'
    at agree ⊢
  cases agree with
  | ok good =>
      obtain ⟨rfl, rfl, length⟩ := good
      exact ⟨⟨rfl, rfl, rfl⟩, length⟩
  | @stop stop s m' known =>
      cases stop with
      | outOfFuel => trivial
      | trap t =>
          obtain ⟨rfl, -⟩ := known nofun
          exact ⟨⟨rfl, rfl, rfl⟩, Trap.isLike_toFault t⟩
      | refused r =>
          obtain ⟨-, cause⟩ := known nofun
          refine ⟨cause.resolve_left nofun, ?_⟩
          cases r with
          | address => rfl
          | arguments => rfl

end WasmMachine
