/-
# Running an instance in two surroundings

The code of an instance runs in lockstep in its two surroundings: it ends or stops in the
same way, and what it leaves behind differs in nothing that the instance owns.  It keeps to
itself because no reference on the stack, in a local variable or in what the instance owns
leads to a function of another instance, and each call is to a function of its own.  That is
kept by each function of the machine with some fuel when those it calls keep it with less.
-/

import WasmMachine.Machine.Run
import WasmMachine.Proofs.Isolation.Plain
import WasmMachine.Proofs.Linking.Resolved

namespace WasmMachine

/-! ## The stack -/

/-- All values of a stack, at hand and below, lead nowhere but to functions of an instance. -/
structure Stack.Within (inst : ModuleInstance) (s : Stack) : Prop where
  operands : ∀ x ∈ s.operands, x.Within inst
  levels : ∀ l ∈ s.levels, ∀ x ∈ l.below, x.Within inst

namespace Stack.Within

variable {inst : ModuleInstance} {s rest : Stack} {values : List Value}

theorem pushValues (within : s.Within inst) (pushed : ∀ x ∈ values, x.Within inst) :
    (s.pushValues values).Within inst where
  operands x mem := by
    rcases List.mem_append.mp mem with mem | mem
    · exact pushed x (List.mem_reverse.mp mem)
    · exact within.operands x mem
  levels := within.levels

theorem mark (within : s.Within inst) (m : Marker) : (s.mark m).Within inst where
  operands x mem := absurd mem List.not_mem_nil
  levels l mem := by
    rcases List.mem_cons.mp mem with rfl | mem
    · exact within.operands
    · exact within.levels l mem

theorem of_popValues? {n : Nat} (within : s.Within inst)
    (popped : s.popValues? n = some (values, rest)) :
    (∀ x ∈ values, x.Within inst) ∧ rest.Within inst := by
  unfold popValues? at popped
  split at popped
  · cases popped
    refine ⟨fun x mem => ?_, fun x mem => ?_, within.levels⟩
    · exact within.operands x (List.mem_of_mem_take (List.mem_reverse.mp mem))
    · exact within.operands x (List.mem_of_mem_drop mem)
  · cases popped

theorem dropEntries (n : Nat) {operands : List Value} {levels : List Level}
    (within : ∀ x ∈ operands, x.Within inst) (below : ∀ l ∈ levels, ∀ x ∈ l.below, x.Within inst) :
    (∀ x ∈ (Stack.dropEntries n operands levels).1, x.Within inst) ∧
      ∀ l ∈ (Stack.dropEntries n operands levels).2, ∀ x ∈ l.below, x.Within inst := by
  induction levels generalizing n operands with
  | nil => exact ⟨fun x mem => within x (List.mem_of_mem_drop mem), below⟩
  | cons l rest ih =>
      unfold Stack.dropEntries
      split
      · exact ⟨fun x mem => within x (List.mem_of_mem_drop mem), below⟩
      · exact ih _ (below l List.mem_cons_self) fun l' mem => below l' (List.mem_cons_of_mem l mem)

theorem truncate (within : s.Within inst) (height : Nat) : (s.truncate height).Within inst :=
  have kept := dropEntries (s.length - height) within.operands within.levels
  ⟨kept.1, kept.2⟩

end Stack.Within

/-- Local variables start with numbers and null references. -/
theorem Value.within_zero? {inst : ModuleInstance} {t : ValType} {x : Value}
    (is : Value.zero? t = some x) : x.Within inst := by
  unfold Value.zero? at is
  repeat
    split at is
    · cases is
      trivial
  cases is

namespace Enclave

/-- A machine that runs code of the instance, and the other store that it may have instead. -/
structure Inside (v : Enclave) (m : Machine) (t : Store) : Prop where
  stores : v.Stores m.store t
  stack : m.stack.Within v.inst
  frame : ∀ f, m.frame = some f → v.Framed f
  options : m.options = v.before.options
  names : m.names = v.before.names
  records : m.records = v.before.records

/-- Two machines that differ in their stores alone, and there in nothing that the instance
owns. -/
def Machines (v : Enclave) (m n : Machine) : Prop := ∃ t, v.Inside m t ∧ n = { m with store := t }

/-- An action of the machine that goes in lockstep in the two surroundings. -/
abbrev Runs {α : Type} (v : Enclave) (action : Run α) (Good : α → Prop) : Prop :=
  Lockstep v.Machines action Good

variable {v : Enclave} {α β : Type}

open Run

theorem get_runs {next : Machine → Run β} {After : β → Prop}
    (rest : ∀ m t, v.Inside m t →
      Matches v.Machines After (next m m) (next { m with store := t } { m with store := t })) :
    v.Runs (get >>= next) After := by
  refine Lockstep.get ?_
  rintro m _ ⟨t, inside, rfl⟩
  exact rest m t inside

theorem modifyStack_runs {f : Stack → Stack} (kept : ∀ s, s.Within v.inst → (f s).Within v.inst) :
    v.Runs (modifyStack f) fun _ => True := by
  refine Lockstep.modify ?_
  rintro m _ ⟨t, inside, rfl⟩
  exact ⟨t, { inside with stack := kept _ inside.stack }, rfl⟩

/-- A step of a plain instruction in the machine. -/
theorem step_runs {action : Step α} {Good : α → Prop} (steps : v.Steps action Good) :
    v.Runs (step action) Good := by
  rintro ⟨store, ⟨operands, levels, base, h⟩, frame, depth, options, names, records⟩ _
    ⟨t, inside, rfl⟩
  unfold Run.step
  simp only
  rcases (steps ⟨operands, frame, store⟩ _
      ⟨t, ⟨inside.stores, inside.stack.operands, inside.frame⟩, rfl⟩).exists_eq with
    ⟨a, s, _, ran, ran', good, t', inScope, rfl⟩ | ⟨e, s, _, ran, ran', t', inScope, rfl⟩
  · simp only [ran, ran']
    exact .ok good ⟨t', { inside with
      stores := inScope.stores
      stack := ⟨inScope.operands, inside.stack.levels⟩
      frame := inScope.frame }, rfl⟩
  · simp only [ran, ran']
    exact .error ⟨t', { inside with
      stores := inScope.stores
      stack := ⟨inScope.operands, inside.stack.levels⟩
      frame := inScope.frame }, rfl⟩

theorem trap_runs (t : Trap) {Good : α → Prop} : v.Runs (trap t) Good := Lockstep.throw _

/-! ## Control -/

theorem height_runs : v.Runs height fun _ => True := by
  unfold height
  exact get_runs fun m t inside => .ok trivial ⟨t, inside, rfl⟩

theorem popValues_runs (n : Nat) : v.Runs (popValues n) fun values => ∀ x ∈ values, x.Within v.inst := by
  unfold popValues
  refine get_runs fun m t inside => ?_
  simp only
  cases popped : m.stack.popValues? n with
  | none => exact .error ⟨t, inside, rfl⟩
  | some both =>
      obtain ⟨values, rest⟩ := both
      obtain ⟨taken, left⟩ := inside.stack.of_popValues? popped
      exact .ok taken ⟨t, { inside with stack := left }, rfl⟩

theorem unwind_runs (position arity : Nat) : v.Runs (unwind position arity) fun _ => True := by
  unfold unwind
  refine (popValues_runs arity).bind fun values within => ?_
  have replace : v.Runs (modifyStack fun s => (s.truncate position).pushValues values)
      fun _ => True := modifyStack_runs fun s kept => (kept.truncate position).pushValues within
  exact height_runs.bind fun _ _ => .guard fun _ => replace

theorem endLabel_runs (position count : Nat) : v.Runs (endLabel position count) fun _ => True := by
  unfold endLabel
  refine (popValues_runs count).bind fun values within => ?_
  have replace : v.Runs (modifyStack fun s => (s.truncate position).pushValues values)
      fun _ => True := modifyStack_runs fun s kept => (kept.truncate position).pushValues within
  refine get_runs fun m t inside => ?_
  simp only
  by_cases missing : (m.stack.labelAtPosition? position).isNone = true
  · rw [if_pos missing]
    exact .error ⟨t, inside, rfl⟩
  · rw [if_neg missing]
    exact replace m _ ⟨t, inside, rfl⟩

theorem branch_runs (depth : Nat) : v.Runs (branch depth) fun _ => True := by
  unfold branch
  refine get_runs fun m t inside => ?_
  simp only
  cases m.stack.label? depth with
  | none => exact .error ⟨t, inside, rfl⟩
  | some found =>
      exact (unwind_runs found.2 found.1.arity).bind (fun _ _ => .pure trivial) m _ ⟨t, inside, rfl⟩

theorem leave_runs : v.Runs leave fun _ => True := by
  unfold leave
  refine get_runs fun m t inside => ?_
  simp only
  cases m.stack.frame? with
  | none => exact .error ⟨t, inside, rfl⟩
  | some found =>
      exact (unwind_runs found.2 found.1.1).bind (fun _ _ => .pure trivial) m _ ⟨t, inside, rfl⟩

/-! ## Looking things up -/

/-- The types of the running code's instance are the same in both surroundings. -/
theorem blockSignature_runs (i : Instruction) : v.Runs (blockSignature i) fun _ => True := by
  unfold blockSignature
  split
  · exact trap_runs _
  · next type _ =>
      refine get_runs fun m t inside => ?_
      simp only [inside.stores.instances]
      cases BlockType.signature? _ type with
      | none => exact .error ⟨t, inside, rfl⟩
      | some signature => exact .ok trivial ⟨t, inside, rfl⟩

theorem callTarget_steps (index : UInt32) : v.Steps (callTarget index) (· ∈ v.inst.funcs) := by
  unfold callTarget
  refine home_steps.bind ?_
  rintro _ rfl
  split
  · next found => exact .pure (Array.mem_of_getElem? found)
  · exact .throw _

/-- A table of the instance holds no function but its own. -/
theorem indirectTarget_steps (typeIndex tableIndex : UInt32) :
    v.Steps (indirectTarget typeIndex tableIndex) (· ∈ v.inst.funcs) := by
  unfold indirectTarget
  refine home_steps.bind ?_
  rintro _ rfl
  split
  · exact .throw _
  · refine (address_steps _ _ tableIndex).bind fun addr own => ?_
    refine (fetchTable_steps _ own).bind fun table within => ?_
    refine popI32_steps.bind fun i _ => ?_
    split
    · exact .throw _
    · next func found =>
        have target : func ∈ v.inst.funcs := within _ (Array.mem_of_getElem? found)
        refine get_steps fun s t inScope => ?_
        simp only [inScope.stores.funcs]
        cases s.store.funcs[func]? with
        | none => exact .error ⟨t, inScope, rfl⟩
        | some f =>
            simp only
            split
            · exact .error ⟨t, inScope, rfl⟩
            · exact .ok target ⟨t, inScope, rfl⟩
    · exact .throw _

theorem within_localZeros {types : List ValType} {zeros : List Value}
    (made : localZeros types = .ok zeros) : ∀ x ∈ zeros, x.Within v.inst := by
  intro x mem
  obtain ⟨i, there⟩ := List.getElem?_of_mem mem
  obtain ⟨t, -, zero⟩ := exists_getElem?_of_forall₂ (forall₂_of_mapM made) there
  split at zero
  · next y is =>
      cases zero
      exact Value.within_zero? is
  · cases zero

/-! ## Everything that runs code -/

/-- With an amount of fuel, all code of the instance runs in lockstep. It calls neither host
functions nor anything else that is not its own. -/
structure AllRuns (v : Enclave) (fuel : Nat) : Prop where
  sequence : ∀ is, v.Runs (sequence fuel is) fun _ => True
  instruction : ∀ i, v.Runs (instruction fuel i) fun _ => True
  construct : ∀ label type body loop, v.Runs (construct fuel label type body loop) fun _ => True
  call : ∀ addr ∈ v.inst.funcs, v.Runs (call fuel addr) fun _ => True
  function : ∀ f : Code, f.home = some v.home → v.Runs (function fuel (.code f)) fun _ => True
  code : ∀ f : Code, f.home = some v.home → v.Runs (code fuel f) fun _ => True
  framed : ∀ frame body, v.Framed frame → v.Runs (framed fuel frame body) fun _ => True

namespace AllRuns

/-- Without fuel nothing is done. -/
theorem zero : AllRuns v 0 where
  sequence _ := by
    rw [Run.sequence]
    exact .throw _
  instruction _ := by
    rw [Run.instruction]
    exact .throw _
  construct _ _ _ _ := by
    rw [Run.construct]
    exact .throw _
  call _ _ := by
    rw [Run.call]
    exact .throw _
  function _ _ := by
    rw [Run.function]
    exact .throw _
  code _ _ := by
    rw [Run.code]
    exact .throw _
  framed _ _ _ := by
    rw [Run.framed]
    exact .throw _

variable {fuel : Nat}

theorem sequence_succ (all : AllRuns v fuel) (is : List Instruction) :
    v.Runs (Run.sequence (fuel + 1) is) fun _ => True := by
  cases is with
  | nil =>
      rw [Run.sequence]
      exact .pure trivial
  | cons i rest =>
      rw [Run.sequence]
      refine (all.instruction i).bind fun exit _ => ?_
      split
      · exact all.sequence rest
      · exact .pure trivial

theorem instruction_succ (all : AllRuns v fuel) (i : Instruction) :
    v.Runs (Run.instruction (fuel + 1) i) fun _ => True := by
  rw [Run.instruction]
  split
  · exact (blockSignature_runs i).bind fun type _ => all.construct _ _ _ _
  · exact (blockSignature_runs i).bind fun type _ => all.construct _ _ _ _
  · refine (step_runs popI32_steps).bind fun condition _ => ?_
    exact (blockSignature_runs i).bind fun type _ => all.construct _ _ _ _
  · exact branch_runs _
  · refine (step_runs popI32_steps).bind fun condition _ => ?_
    split
    · exact .pure trivial
    · exact branch_runs _
  · exact (step_runs popI32_steps).bind fun index _ => branch_runs _
  · exact leave_runs
  · refine (step_runs (callTarget_steps _)).bind fun addr own => ?_
    exact (all.call addr own).bind fun _ _ => .pure trivial
  · refine (step_runs (indirectTarget_steps _ _)).bind fun addr own => ?_
    exact (all.call addr own).bind fun _ _ => .pure trivial
  · refine get_runs fun m t inside => ?_
    exact (step_runs (plain_steps m.options i)).bind (fun _ _ => .pure trivial) m _
      ⟨t, inside, rfl⟩

theorem construct_succ (all : AllRuns v fuel) (label : Label) (type : FuncType)
    (body : List Instruction) (loop : Bool) :
    v.Runs (Run.construct (fuel + 1) label type body loop) fun _ => True := by
  rw [Run.construct]
  refine (popValues_runs _).bind fun args within => ?_
  refine height_runs.bind fun position _ => ?_
  refine (modifyStack_runs fun s kept => (kept.mark _).pushValues within).bind fun _ _ => ?_
  refine (all.sequence body).bind fun exit _ => ?_
  split
  · exact (endLabel_runs _ _).bind fun _ _ => .pure trivial
  · exact .pure trivial
  · exact .pure trivial
  · split
    · exact all.construct _ _ _ _
    · exact .pure trivial

theorem call_succ (all : AllRuns v fuel) {addr : Addr} (own : addr ∈ v.inst.funcs) :
    v.Runs (Run.call (fuel + 1) addr) fun _ => True := by
  rintro m _ ⟨t, inside, rfl⟩
  obtain ⟨f, found, home⟩ := inside.stores.code own
  rw [Run.call]
  simp only [inside.stores.funcs, found]
  by_cases deep : m.options.callLimit ≤ m.depth
  · rw [if_pos deep, if_pos deep]
    exact .error ⟨t, inside, rfl⟩
  · rw [if_neg deep, if_neg deep]
    rcases (all.function f home { m with depth := m.depth + 1 } _
        ⟨t, { inside with }, rfl⟩).exists_eq with
      ⟨_, m', _, ran, ran', -, t', inside', rfl⟩ | ⟨stop, m', _, ran, ran', t', inside', rfl⟩
    · simp only [ran, ran']
      exact .ok trivial ⟨t', { inside' with }, rfl⟩
    · simp only [ran, ran']
      exact .error ⟨t', { inside' with }, rfl⟩

theorem function_succ (all : AllRuns v fuel) {f : Code} (home : f.home = some v.home) :
    v.Runs (Run.function (fuel + 1) (.code f)) fun _ => True := by
  rw [Run.function]
  exact all.code f home

theorem code_succ (all : AllRuns v fuel) {f : Code} (home : f.home = some v.home) :
    v.Runs (Run.code (fuel + 1) f) fun _ => True := by
  rw [Run.code]
  refine (popValues_runs _).bind fun args within => ?_
  split
  · exact trap_runs _
  · next zeros made =>
      refine height_runs.bind fun position _ => ?_
      have framed : v.Framed ⟨f.home, (args ++ zeros).toArray, f.type.results.length⟩ := by
        refine ⟨home, fun x mem => ?_⟩
        rcases List.mem_append.mp (List.mem_toArray.mp mem) with mem | mem
        · exact within x mem
        · exact within_localZeros made x mem
      refine (all.framed _ _ framed).bind fun exit _ => ?_
      split
      · exact .pure trivial
      · exact trap_runs _
      · exact unwind_runs _ _
      · exact unwind_runs _ _

theorem framed_succ (all : AllRuns v fuel) {frame : Frame} (body : List Instruction)
    (framed : v.Framed frame) : v.Runs (Run.framed (fuel + 1) frame body) fun _ => True := by
  rintro m _ ⟨t, inside, rfl⟩
  rw [Run.framed]
  have marked : v.Inside { m with
      stack := (m.stack.mark (.frame frame.arity frame.locals.size)).mark (.label ⟨frame.arity, []⟩)
      frame := some frame } t :=
    { inside with
      stack := (inside.stack.mark _).mark _
      frame := fun f running => by
        cases running
        exact framed }
  rcases (all.sequence body _ _ ⟨t, marked, rfl⟩).exists_eq with
    ⟨exit, m', _, ran, ran', -, t', inside', rfl⟩ | ⟨stop, m', _, ran, ran', t', inside', rfl⟩
  · simp only [ran, ran']
    exact .ok trivial ⟨t', { inside' with frame := inside.frame }, rfl⟩
  · simp only [ran, ran']
    exact .error ⟨t', { inside' with frame := inside.frame }, rfl⟩

end AllRuns

theorem allRuns (v : Enclave) (fuel : Nat) : v.AllRuns fuel := by
  induction fuel with
  | zero => exact .zero
  | succ fuel ih =>
      exact {
        sequence := ih.sequence_succ
        instruction := ih.instruction_succ
        construct := ih.construct_succ
        call := fun addr own => ih.call_succ own
        function := fun f home => ih.function_succ home
        code := fun f home => ih.code_succ home
        framed := fun frame body framed => ih.framed_succ body framed }

/-- An invocation of a function of the instance goes the same way in both surroundings, when
its arguments lead nowhere else. -/
theorem invoke_runs (fuel : Nat) {addr : Addr} (own : addr ∈ v.inst.funcs)
    {args : List (Option Value)} (within : ∀ x, some x ∈ args → x.Within v.inst) :
    v.Runs (invoke fuel addr args) fun _ => True := by
  cases fuel with
  | zero =>
      rw [Run.invoke]
      exact .throw _
  | succ fuel =>
      rintro m _ ⟨t, inside, rfl⟩
      obtain ⟨f, found, home⟩ := inside.stores.code own
      rw [Run.invoke]
      simp only [inside.stores.funcs, found, Option.map_some]
      by_cases refused : (!Value.matchTypes args (FuncInst.code f).type.params) = true
      · rw [if_pos refused, if_pos refused]
        exact .error ⟨t, inside, rfl⟩
      · rw [if_neg refused, if_neg refused]
        have loaded : v.Inside { m with stack := m.stack.pushValues (args.filterMap id) } t :=
          { inside with stack := inside.stack.pushValues fun x mem => within x (by simpa using mem) }
        rcases ((v.allRuns fuel).call addr own _ _ ⟨t, loaded, rfl⟩).exists_eq with
          ⟨_, m', _, ran, ran', -, t', inside', rfl⟩ | ⟨stop, m', _, ran, ran', t', inside', rfl⟩
        · simp only [ran, ran']
          have cleared : v.Inside { m' with
              stack := m'.stack.truncate m.stack.length, frame := m.frame } t' :=
            { inside' with stack := inside'.stack.truncate _, frame := inside.frame }
          cases popped : m'.stack.popValues? (FuncInst.code f).type.results.length with
          | none => exact .error ⟨t', cleared, rfl⟩
          | some both =>
              obtain ⟨results, stack⟩ := both
              obtain ⟨-, left⟩ := inside'.stack.of_popValues? popped
              simp only
              by_cases level : stack.length = m.stack.length
              · rw [if_pos level, if_pos level]
                exact .ok trivial ⟨t', { inside' with stack := left, frame := inside.frame }, rfl⟩
              · rw [if_neg level, if_neg level]
                exact .error ⟨t', { inside' with
                  stack := left.truncate _, frame := inside.frame }, rfl⟩
        · simp only [ran, ran']
          cases stop with
          | trap e =>
              exact .error ⟨t', { inside' with
                stack := inside'.stack.truncate _, frame := inside.frame }, rfl⟩
          | refused r => exact .error ⟨t', inside', rfl⟩
          | outOfFuel => exact .error ⟨t', inside', rfl⟩

end Enclave

end WasmMachine
