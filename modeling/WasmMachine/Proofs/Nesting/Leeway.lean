/-
# Two limits on the nesting of calls

The same code is run under two limits on the nesting of calls.  Until the tighter limit
refuses a call the two runs cannot be told apart: they do the same steps on the same stack
and the same store, and the number of active calls is the same in both.  So the run under
the tighter limit either goes as the other one does, or is cut short, by its limit or by the
end of its fuel.

This needs host functions that stay out of the machine; what they keep and do through views
is part of the store.  One that calls back gets the trap of a refused call as an outcome and
may do something else instead.
-/

import WasmMachine.Proofs.Evolution.Run
import WasmMachine.Proofs.Isolation.Lockstep

namespace WasmMachine

/-- A host function that calls nothing before it comes to an end. It may record things, keep
and retrieve values, and use views. -/
inductive HostProgram.StaysOut : HostProgram → Prop
  | finish (results : List (Option Value)) : StaysOut (.finish results)
  | fail (fault : Fault) : StaysOut (.fail fault)
  | record (entry : HostRecord) {next : HostProgram} :
      next.StaysOut → StaysOut (.record entry next)
  | keep (name : String) (values : List Value) {next : HostProgram} :
      next.StaysOut → StaysOut (.keep name values next)
  | retrieve (name : String) {next : List Value → HostProgram} :
      (∀ values, (next values).StaysOut) → StaysOut (.retrieve name next)
  | view (inst memory : String) (request : ViewRequest) {next : Option ViewAnswer → HostProgram} :
      (∀ answer, (next answer).StaysOut) → StaysOut (.view inst memory request next)

/-- No host function of a store calls back into the machine, whatever it is given. -/
def Store.StaysOut (s : Store) : Prop :=
  ∀ (addr : Addr) (f : HostCode), s.funcs[addr]? = some (.host f) →
    ∀ args, (f.behaviour args).StaysOut

/-! ## Functions of a store -/

namespace Store

/-- No change that running code makes concerns the functions. -/
theorem Change.funcs {s s' : Store} (change : s.Change s') : s'.funcs = s.funcs := by
  cases change with
  | _ => rfl

theorem Evolves.funcs {s s' : Store} (evolves : s.Evolves s') : s'.funcs = s.funcs :=
  evolves.keeps (P := fun t => t.funcs = s.funcs)
    (fun _ _ change same => change.funcs.trans same) rfl

end Store

namespace Step

variable {α : Type}

/-- A step that makes at most one change leaves the functions as they are. -/
theorem Writes.funcs {action : Step α} {s s' : Scope} {a : α} (writes : Writes s.store action)
    (ran : action s = .ok a s') : s'.store.funcs = s.store.funcs := by
  rcases (writes s rfl).good ran with same | change
  · rw [same]
  · exact change.funcs

/-- The same for one that traps. -/
theorem Writes.funcs_of_error {action : Step α} {s s' : Scope} {t : Trap}
    (writes : Writes s.store action) (ran : action s = .error t s') :
    s'.store.funcs = s.store.funcs := by
  have same := (writes s rfl).bad ran
  rw [same.store]

/-- The depth to which calls may nest is nothing to a plain instruction. -/
theorem plain_eq {o o' : Options} (select : o.select = o'.select) (i : Instruction) :
    plain o i = plain o' i := by
  unfold plain
  rw [select]

end Step

/-! ## The runs -/

/-- Functions none of which calls back, and two sets of options, of which the second leaves
at least as much room for calls and the same for all else. -/
structure Leeway where
  funcs : Array FuncInst
  tight : Options
  loose : Options
  room : tight.callLimit ≤ loose.callLimit
  select : tight.select = loose.select
  staysOut : ∀ (addr : Addr) (f : HostCode), funcs[addr]? = some (.host f) →
    ∀ args, (f.behaviour args).StaysOut

/-- A run that was cut short: with more fuel or room for more calls it goes on. -/
inductive Stop.Cut : Stop → Prop
  | outOfFuel : Cut .outOfFuel
  | callStackExhausted : Cut (.trap .callStackExhausted)

namespace Leeway

variable {α β : Type}

/-- Two machines that differ in their options alone, at the same depth. -/
structure Twins (l : Leeway) (depth : Nat) (m n : Machine) : Prop where
  funcs : m.store.funcs = l.funcs
  options : m.options = l.tight
  depth : m.depth = depth
  other : n = { m with options := l.loose }

/-- The first outcome is the second one, with twins left behind, or it is one of a run that
was cut short. -/
inductive Follows (l : Leeway) (depth : Nat) :
    EStateM.Result Stop Machine α → EStateM.Result Stop Machine α → Prop
  | same {first second : EStateM.Result Stop Machine α} :
      Matches (l.Twins depth) (fun _ => True) first second → Follows l depth first second
  | cut {stop : Stop} {m : Machine} {second : EStateM.Result Stop Machine α} :
      stop.Cut → Follows l depth (.error stop m) second

/-- An action that goes in the same way under both limits, until it is cut short. -/
def Tracks (l : Leeway) (depth : Nat) (action : Run α) : Prop :=
  ∀ m n, l.Twins depth m n → l.Follows depth (action m) (action n)

variable {l : Leeway} {depth : Nat} {first second : EStateM.Result Stop Machine α}

namespace Follows

theorem ok {a : α} {m n : Machine} (twins : l.Twins depth m n) :
    l.Follows depth (.ok a m) (.ok a n) := .same (.ok trivial twins)

theorem error {stop : Stop} {m n : Machine} (twins : l.Twins depth m n) :
    l.Follows (α := α) depth (.error stop m) (.error stop n) := .same (.error twins)

/-- Two outcomes of which the first follows the second, taken apart. -/
theorem exists_eq (follows : l.Follows depth first second) :
    (∃ a m n, first = .ok a m ∧ second = .ok a n ∧ l.Twins depth m n) ∨
      (∃ stop m n, first = .error stop m ∧ second = .error stop n ∧ l.Twins depth m n) ∨
      ∃ stop m, first = .error stop m ∧ stop.Cut := by
  cases follows with
  | same both =>
      rcases both.exists_eq with ⟨a, m, n, ran, ran', -, twins⟩ | ⟨stop, m, n, ran, ran', twins⟩
      · exact .inl ⟨a, m, n, ran, ran', twins⟩
      · exact .inr (.inl ⟨stop, m, n, ran, ran', twins⟩)
  | cut cut => exact .inr (.inr ⟨_, _, rfl, cut⟩)

end Follows

namespace Tracks

variable {action : Run α} {next : α → Run β}

theorem pure (a : α) : l.Tracks depth (Pure.pure a) := fun _ _ twins => .ok twins

theorem trap (t : Trap) : l.Tracks depth (Run.trap t : Run α) := fun _ _ twins => .error twins

theorem outOfFuel : l.Tracks depth (throw .outOfFuel : Run α) := fun _ _ _ => .cut .outOfFuel

theorem bind (tracks : l.Tracks depth action) (rest : ∀ a, l.Tracks depth (next a)) :
    l.Tracks depth (action >>= next) := by
  intro m n twins
  show l.Follows depth (EStateM.bind action next m) (EStateM.bind action next n)
  unfold EStateM.bind
  rcases (tracks m n twins).exists_eq with
    ⟨a, m, n, ran, ran', twins⟩ | ⟨stop, m, n, ran, ran', twins⟩ | ⟨stop, m, ran, cut⟩
  · rw [ran, ran']
    exact rest a m n twins
  · rw [ran, ran']
    exact .error twins
  · rw [ran]
    exact .cut cut

/-- Looking at the machine, both runs see the same, but for the options. -/
theorem get {next : Machine → Run β}
    (rest : ∀ m, m.options = l.tight → ∀ n, l.Twins depth m n →
      l.Follows depth (next m m) (next n n)) :
    l.Tracks depth (MonadState.get >>= next) := fun m n twins => rest m twins.options n twins

theorem modifyStack (f : Stack → Stack) : l.Tracks depth (Run.modifyStack f) := by
  rintro m _ ⟨funcs, options, depth, rfl⟩
  exact .ok ⟨funcs, options, depth, rfl⟩

/-- A step of a plain instruction, which changes no functions. -/
theorem step {action : Step α} (writes : ∀ st, Step.Writes st action) :
    l.Tracks depth (Run.step action) := by
  rintro ⟨store, ⟨operands, levels, base, h⟩, frame, depth, options, names, records⟩ _
    ⟨funcs, options, depth, rfl⟩
  unfold Run.step
  simp only
  cases ran : action ⟨operands, frame, store⟩ with
  | ok a s => exact .ok ⟨((writes store).funcs ran).trans funcs, options, depth, rfl⟩
  | error t s => exact .error ⟨((writes store).funcs_of_error ran).trans funcs, options, depth, rfl⟩

end Tracks

/-! ## Control -/

open Run

theorem height_tracks : l.Tracks depth height := by
  unfold height
  refine .get fun m _ n twins => ?_
  obtain rfl := twins.other
  exact .ok twins

theorem popValues_tracks (n : Nat) : l.Tracks depth (popValues n) := by
  unfold popValues
  refine .get fun m _ other twins => ?_
  obtain rfl := twins.other
  simp only
  cases m.stack.popValues? n with
  | none => exact .error twins
  | some both => exact (Tracks.modifyStack _).bind (fun _ => .pure _) _ _ twins

theorem unwind_tracks (position arity : Nat) : l.Tracks depth (unwind position arity) := by
  unfold unwind
  refine (popValues_tracks arity).bind fun values => ?_
  refine height_tracks.bind fun _ => ?_
  split
  · exact (Tracks.trap _).bind fun _ => .modifyStack _
  · exact .modifyStack _

theorem endLabel_tracks (position count : Nat) : l.Tracks depth (endLabel position count) := by
  unfold endLabel
  refine (popValues_tracks count).bind fun values => ?_
  refine .get fun m _ n twins => ?_
  obtain rfl := twins.other
  simp only
  split
  · exact .error twins
  · exact Tracks.modifyStack _ _ _ twins

theorem branch_tracks (target : Nat) : l.Tracks depth (branch target) := by
  unfold branch
  refine .get fun m _ n twins => ?_
  obtain rfl := twins.other
  simp only
  cases m.stack.label? target with
  | none => exact .error twins
  | some found => exact (unwind_tracks _ _).bind (fun _ => .pure _) _ _ twins

theorem leave_tracks : l.Tracks depth leave := by
  unfold leave
  refine .get fun m _ n twins => ?_
  obtain rfl := twins.other
  simp only
  cases m.stack.frame? with
  | none => exact .error twins
  | some found => exact (unwind_tracks _ _).bind (fun _ => .pure _) _ _ twins

theorem blockSignature_tracks (i : Instruction) : l.Tracks depth (blockSignature i) := by
  unfold blockSignature
  split
  · exact .trap _
  · next type _ =>
      refine .get fun m _ n twins => ?_
      obtain rfl := twins.other
      simp only
      cases BlockType.signature? _ type with
      | none => exact .error twins
      | some signature => exact .ok twins

theorem popI32_tracks : l.Tracks depth (step Step.popI32) :=
  .step fun _ => Step.popI32_quiet.writes

/-- A host function that stays out of the machine sees nothing of its limit. -/
theorem host_tracks {program : HostProgram} (staysOut : program.StaysOut) (fuel : Nat) :
    l.Tracks depth (host fuel program) := by
  induction fuel generalizing program with
  | zero =>
      rw [Run.host]
      exact .outOfFuel
  | succ fuel ih =>
      cases staysOut with
      | finish results =>
          rw [Run.host]
          exact .pure _
      | fail fault =>
          rw [Run.host]
          exact .pure _
      | record entry staysOut =>
          rw [Run.host]
          rintro m _ ⟨funcs, options, depth, rfl⟩
          exact ih staysOut _ _ ⟨funcs, options, depth, rfl⟩
      | keep name values staysOut =>
          rw [Run.host]
          rintro m _ ⟨funcs, options, depth, rfl⟩
          exact ih staysOut _ _ ⟨funcs, options, depth, rfl⟩
      | retrieve name staysOut =>
          rw [Run.host]
          rintro m _ ⟨funcs, options, depth, rfl⟩
          exact ih (staysOut (m.store.retrieve name)) _ _ ⟨funcs, options, depth, rfl⟩
      | view inst memory request staysOut =>
          rw [Run.host]
          rintro m _ ⟨funcs, options, depth, rfl⟩
          have viewed := m.store.useView_viewed m.names inst memory request
          have same := (Store.Evolves.of_viewed viewed).funcs
          exact ih (staysOut _) _ _ ⟨same.trans funcs, options, depth, rfl⟩

/-! ## Everything that runs code -/

/-- With an amount of fuel, all code goes the same way under both limits, at whatever depth it
is run. -/
structure AllTracks (l : Leeway) (fuel : Nat) : Prop where
  sequence : ∀ depth is, l.Tracks depth (sequence fuel is)
  instruction : ∀ depth i, l.Tracks depth (instruction fuel i)
  construct : ∀ depth label type body loop, l.Tracks depth (construct fuel label type body loop)
  call : ∀ depth addr, l.Tracks depth (call fuel addr)
  function : ∀ depth (addr : Addr) f, l.funcs[addr]? = some f → l.Tracks depth (function fuel f)
  code : ∀ depth f, l.Tracks depth (code fuel f)
  framed : ∀ depth frame body, l.Tracks depth (framed fuel frame body)

namespace AllTracks

/-- Without fuel every run is cut short. -/
theorem zero : l.AllTracks 0 where
  sequence _ _ := by
    rw [Run.sequence]
    exact .outOfFuel
  instruction _ _ := by
    rw [Run.instruction]
    exact .outOfFuel
  construct _ _ _ _ _ := by
    rw [Run.construct]
    exact .outOfFuel
  call _ _ := by
    rw [Run.call]
    exact .outOfFuel
  function _ _ _ _ := by
    rw [Run.function]
    exact .outOfFuel
  code _ _ := by
    rw [Run.code]
    exact .outOfFuel
  framed _ _ _ := by
    rw [Run.framed]
    exact .outOfFuel

variable {fuel : Nat}

theorem sequence_succ (all : l.AllTracks fuel) (depth : Nat) (is : List Instruction) :
    l.Tracks depth (Run.sequence (fuel + 1) is) := by
  cases is with
  | nil =>
      rw [Run.sequence]
      exact .pure _
  | cons i rest =>
      rw [Run.sequence]
      refine (all.instruction depth i).bind fun exit => ?_
      split
      · exact all.sequence depth rest
      · exact .pure _

theorem instruction_succ (all : l.AllTracks fuel) (depth : Nat) (i : Instruction) :
    l.Tracks depth (Run.instruction (fuel + 1) i) := by
  rw [Run.instruction]
  split
  · exact (blockSignature_tracks i).bind fun type => all.construct _ _ _ _ _
  · exact (blockSignature_tracks i).bind fun type => all.construct _ _ _ _ _
  · refine popI32_tracks.bind fun condition => ?_
    exact (blockSignature_tracks i).bind fun type => all.construct _ _ _ _ _
  · exact branch_tracks _
  · refine popI32_tracks.bind fun condition => ?_
    split
    · exact .pure _
    · exact branch_tracks _
  · exact popI32_tracks.bind fun index => branch_tracks _
  · exact leave_tracks
  · refine (Tracks.step (callTarget_writes _)).bind fun addr => ?_
    exact (all.call depth addr).bind fun _ => .pure _
  · refine (Tracks.step (indirectTarget_writes _ _)).bind fun addr => ?_
    exact (all.call depth addr).bind fun _ => .pure _
  · refine .get fun m options n twins => ?_
    obtain rfl := twins.other
    have alike : Step.plain m.options i = Step.plain l.loose i :=
      Step.plain_eq (by rw [options, l.select]) i
    simp only [alike]
    exact (Tracks.step fun _ => Step.plain_writes _ i).bind (fun _ => .pure _) _ _ twins

theorem construct_succ (all : l.AllTracks fuel) (depth : Nat) (label : Label) (type : FuncType)
    (body : List Instruction) (loop : Bool) :
    l.Tracks depth (Run.construct (fuel + 1) label type body loop) := by
  rw [Run.construct]
  refine (popValues_tracks _).bind fun args => ?_
  refine height_tracks.bind fun position => ?_
  refine (Tracks.modifyStack _).bind fun _ => ?_
  refine (all.sequence depth body).bind fun exit => ?_
  split
  · exact (endLabel_tracks _ _).bind fun _ => .pure _
  · exact .pure _
  · exact .pure _
  · split
    · exact all.construct _ _ _ _ _
    · exact .pure _

/-- Here the limits matter: the tighter one refuses whatever the looser one does, and then the
first run is cut short. -/
theorem call_succ (all : l.AllTracks fuel) (depth : Nat) (addr : Addr) :
    l.Tracks depth (Run.call (fuel + 1) addr) := by
  rintro m _ ⟨funcs, options, rfl, rfl⟩
  rw [Run.call]
  cases found : m.store.funcs[addr]? with
  | none =>
      simp only [found]
      exact .error ⟨funcs, options, rfl, rfl⟩
  | some f =>
      simp only [found]
      by_cases deep : m.options.callLimit ≤ m.depth
      · rw [if_pos deep]
        exact .cut .callStackExhausted
      · have shallow : ¬ l.loose.callLimit ≤ m.depth := by
          have room := l.room
          rw [options] at deep
          omega
        rw [if_neg deep, if_neg shallow]
        rw [funcs] at found
        rcases (all.function (m.depth + 1) addr f found { m with depth := m.depth + 1 } _
            ⟨funcs, options, rfl, rfl⟩).exists_eq with
          ⟨_, m', _, ran, ran', twins⟩ | ⟨stop, m', _, ran, ran', twins⟩ | ⟨stop, m', ran, cut⟩
        · obtain ⟨funcs, options, depth, rfl⟩ := twins
          simp only [ran, ran']
          exact .ok ⟨funcs, options, by simp only [depth, Nat.add_sub_cancel], rfl⟩
        · obtain ⟨funcs, options, depth, rfl⟩ := twins
          simp only [ran, ran']
          exact .error ⟨funcs, options, by simp only [depth, Nat.add_sub_cancel], rfl⟩
        · simp only [ran]
          exact .cut cut

theorem function_succ (all : l.AllTracks fuel) (depth : Nat) {addr : Addr} {f : FuncInst}
    (found : l.funcs[addr]? = some f) : l.Tracks depth (Run.function (fuel + 1) f) := by
  cases f with
  | code f =>
      rw [Run.function]
      exact all.code depth f
  | host f =>
      rw [Run.function]
      refine (popValues_tracks _).bind fun args => ?_
      refine (host_tracks (l.staysOut addr f found args) fuel).bind fun outcome => ?_
      split
      · exact .trap _
      · split
        · exact .modifyStack _
        · exact .trap _

theorem code_succ (all : l.AllTracks fuel) (depth : Nat) (f : Code) :
    l.Tracks depth (Run.code (fuel + 1) f) := by
  rw [Run.code]
  refine (popValues_tracks _).bind fun args => ?_
  split
  · exact .trap _
  · refine height_tracks.bind fun position => ?_
    refine (all.framed depth _ _).bind fun exit => ?_
    split
    · exact .pure _
    · exact .trap _
    · exact unwind_tracks _ _
    · exact unwind_tracks _ _

theorem framed_succ (all : l.AllTracks fuel) (depth : Nat) (frame : Frame)
    (body : List Instruction) : l.Tracks depth (Run.framed (fuel + 1) frame body) := by
  rintro m _ ⟨funcs, options, rfl, rfl⟩
  rw [Run.framed]
  rcases (all.sequence m.depth body { m with
      stack := (m.stack.mark (.frame frame.arity frame.locals.size)).mark (.label ⟨frame.arity, []⟩)
      frame := some frame } _ ⟨funcs, options, rfl, rfl⟩).exists_eq with
    ⟨exit, m', _, ran, ran', twins⟩ | ⟨stop, m', _, ran, ran', twins⟩ | ⟨stop, m', ran, cut⟩
  · obtain ⟨funcs, options, depth, rfl⟩ := twins
    simp only [ran, ran']
    exact .ok ⟨funcs, options, depth, rfl⟩
  · obtain ⟨funcs, options, depth, rfl⟩ := twins
    simp only [ran, ran']
    exact .error ⟨funcs, options, depth, rfl⟩
  · simp only [ran]
    exact .cut cut

end AllTracks

theorem allTracks (l : Leeway) (fuel : Nat) : l.AllTracks fuel := by
  induction fuel with
  | zero => exact .zero
  | succ fuel ih =>
      exact {
        sequence := ih.sequence_succ
        instruction := ih.instruction_succ
        construct := ih.construct_succ
        call := ih.call_succ
        function := fun depth _ _ found => ih.function_succ depth found
        code := ih.code_succ
        framed := ih.framed_succ }

/-- An invocation goes the same way under both limits, until it is cut short. -/
theorem invoke_tracks (l : Leeway) (depth fuel : Nat) (addr : Addr)
    (args : List (Option Value)) : l.Tracks depth (invoke fuel addr args) := by
  cases fuel with
  | zero =>
      rw [Run.invoke]
      exact .outOfFuel
  | succ fuel =>
      rintro m _ ⟨funcs, options, rfl, rfl⟩
      rw [Run.invoke]
      cases found : (m.store.funcs[addr]?).map (·.type) with
      | none =>
          simp only [found]
          exact .error ⟨funcs, options, rfl, rfl⟩
      | some type =>
          simp only [found]
          by_cases refused : (!Value.matchTypes args type.params) = true
          · rw [if_pos refused, if_pos refused]
            exact .error ⟨funcs, options, rfl, rfl⟩
          · rw [if_neg refused, if_neg refused]
            rcases ((l.allTracks fuel).call m.depth addr
                { m with stack := m.stack.pushValues (args.filterMap id) } _
                ⟨funcs, options, rfl, rfl⟩).exists_eq with
              ⟨_, m', _, ran, ran', twins⟩ | ⟨stop, m', _, ran, ran', twins⟩ | ⟨stop, m', ran, cut⟩
            · obtain ⟨funcs, options, depth, rfl⟩ := twins
              simp only [ran, ran']
              cases m'.stack.popValues? type.results.length with
              | none => exact .error ⟨funcs, options, depth, rfl⟩
              | some both =>
                  simp only
                  by_cases level : both.2.length = m.stack.length
                  · rw [if_pos level, if_pos level]
                    exact .ok ⟨funcs, options, depth, rfl⟩
                  · rw [if_neg level, if_neg level]
                    exact .error ⟨funcs, options, depth, rfl⟩
            · obtain ⟨funcs, options, depth, rfl⟩ := twins
              simp only [ran, ran']
              cases stop with
              | trap t => exact .error ⟨funcs, options, depth, rfl⟩
              | refused r => exact .error ⟨funcs, options, depth, rfl⟩
              | outOfFuel => exact .cut .outOfFuel
            · simp only [ran]
              cases cut with
              | outOfFuel => exact .cut .outOfFuel
              | callStackExhausted => exact .cut .callStackExhausted

end Leeway

end WasmMachine
