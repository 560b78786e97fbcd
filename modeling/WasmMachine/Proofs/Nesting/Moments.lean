/-
# Moments of a run

While code runs, one piece of work is under way inside of another: the body of a construct
inside of an instruction, a function inside of a call.  A moment of a run is one at which a
piece of work begins.  It is reached from the start of the run by steps from a piece of work
to one that it begins, past what it did before, and the calls on the way are the active ones.

The count of active calls is taken from that way alone.  The machine keeps a counter of its
own, which it raises and lowers; the two agree at every moment, so the limit that the machine
holds against its counter is a limit on the calls that are really active.
-/

import WasmMachine.Embedding.Basic
import WasmMachine.Proofs.Nesting.Leeway

namespace WasmMachine

namespace Run

/-- The action stops with a trap. -/
def Traps {α : Type} (t : Trap) (action : Run α) (m : Machine) : Prop :=
  Ends action m (fun _ _ => False) fun stop _ => stop = .trap t

/-- A piece of work of the machine. -/
inductive Work
  | invoke (addr : Addr) (args : List (Option Value))
  | call (addr : Addr)
  | function (f : FuncInst)
  | code (f : Code)
  | framed (frame : Frame) (body : List Instruction)
  | sequence (is : List Instruction)
  | instruction (i : Instruction)
  | construct (label : Label) (type : FuncType) (body : List Instruction) (loop : Bool)

namespace Work

/-- With some fuel, a piece of work stops with a trap. -/
def Traps (fuel : Nat) (t : Trap) : Work → Machine → Prop
  | invoke addr args => Run.Traps t (Run.invoke fuel addr args)
  | call addr => Run.Traps t (Run.call fuel addr)
  | function f => Run.Traps t (Run.function fuel f)
  | code f => Run.Traps t (Run.code fuel f)
  | framed frame body => Run.Traps t (Run.framed fuel frame body)
  | sequence is => Run.Traps t (Run.sequence fuel is)
  | instruction i => Run.Traps t (Run.instruction fuel i)
  | construct label type body loop => Run.Traps t (Run.construct fuel label type body loop)

/-- The calls that a piece of work makes active for what it begins: a call is active while
its function runs. -/
def calls : Work → Nat
  | call _ => 1
  | _ => 0

/-- One piece of work begins another, with `fuel` for it. What has to be done first has come
to an end without stopping. -/
inductive Begins (fuel : Nat) : Work → Machine → Work → Machine → Prop
  | invoked {addr : Addr} {args : List (Option Value)} {f : FuncInst} {m : Machine} :
      m.store.funcs[addr]? = some f → Value.matchTypes args f.type.params = true →
      Begins fuel (invoke addr args) m
        (call addr) { m with stack := m.stack.pushValues (args.filterMap id) }
  | admitted {addr : Addr} {f : FuncInst} {m : Machine} :
      m.store.funcs[addr]? = some f → m.depth < m.options.callLimit →
      Begins fuel (call addr) m (function f) { m with depth := m.depth + 1 }
  | ofModule (f : Code) (m : Machine) : Begins fuel (function (.code f)) m (code f) m
  | entered {f : Code} {args zeros : List Value} {m m' : Machine} :
      popValues f.type.params.length m = .ok args m' → localZeros f.locals = .ok zeros →
      Begins fuel (code f) m
        (framed ⟨f.home, (args ++ zeros).toArray, f.type.results.length⟩ f.body) m'
  | inFrame (frame : Frame) (body : List Instruction) (m : Machine) :
      Begins fuel (framed frame body) m (sequence body)
        { m with
          stack := (m.stack.mark (.frame frame.arity frame.locals.size)).mark
            (.label ⟨frame.arity, []⟩)
          frame := some frame }
  | first (i : Instruction) (rest : List Instruction) (m : Machine) :
      Begins fuel (sequence (i :: rest)) m (instruction i) m
  | next {i : Instruction} {rest : List Instruction} {m m' : Machine} :
      Run.instruction fuel i m = .ok .normal m' →
      Begins fuel (sequence (i :: rest)) m (sequence rest) m'
  | block {i : Instruction} {type : FuncType} {m m' : Machine} :
      i.opcode = Opcode.block → blockSignature i m = .ok type m' →
      Begins fuel (instruction i) m (construct ⟨type.results.length, []⟩ type i.body false) m'
  | loop {i : Instruction} {type : FuncType} {m m' : Machine} :
      i.opcode = Opcode.loop → blockSignature i m = .ok type m' →
      Begins fuel (instruction i) m (construct ⟨type.params.length, i.body⟩ type i.body true) m'
  | ifElse {i : Instruction} {condition : UInt32} {type : FuncType} {m m' m'' : Machine} :
      i.opcode = Opcode.ifElse → step Step.popI32 m = .ok condition m' →
      blockSignature i m' = .ok type m'' →
      Begins fuel (instruction i) m
        (construct ⟨type.results.length, []⟩ type
          (if condition = 0 then i.orElse else i.body) false) m''
  | direct {i : Instruction} {addr : Addr} {m m' : Machine} :
      i.opcode = Opcode.call → step (callTarget i.callIndex) m = .ok addr m' →
      Begins fuel (instruction i) m (call addr) m'
  | indirect {i : Instruction} {addr : Addr} {m m' : Machine} :
      i.opcode = Opcode.callIndirect →
      step (indirectTarget i.callIndirect.1 i.callIndirect.2) m = .ok addr m' →
      Begins fuel (instruction i) m (call addr) m'
  | labelled {label : Label} {type : FuncType} {body : List Instruction} {again : Bool}
      {args : List Value} {m m' : Machine} :
      popValues type.params.length m = .ok args m' →
      Begins fuel (construct label type body again) m (sequence body)
        { m' with stack := (m'.stack.mark (.label label)).pushValues args }
  | again {label : Label} {type : FuncType} {body : List Instruction}
      {args : List Value} {m m' m'' : Machine} :
      popValues type.params.length m = .ok args m' →
      Run.sequence fuel body
        { m' with stack := (m'.stack.mark (.label label)).pushValues args }
          = .ok (.branch 0) m'' →
      Begins fuel (construct label type body true) m
        (construct label type label.continuation true) m''

end Work

/-- The moments of a run of `root` from the machine `m`, with the fuel that is left and the
number of active calls. -/
inductive Moment (fuel : Nat) (root : Work) (m : Machine) : Nat → Nat → Work → Machine → Prop
  | start : Moment fuel root m fuel 0 root m
  | step {left active : Nat} {w w' : Work} {m' m'' : Machine} :
      Moment fuel root m (left + 1) active w m' → w.Begins left m' w' m'' →
      Moment fuel root m left (active + w.calls) w' m''

end Run

/-! ## The two counts -/

/-- What nothing that the machine does to the end changes: the functions of the store, the
options and the counter of active calls. -/
structure Machine.Steady (before after : Machine) : Prop where
  funcs : after.store.funcs = before.store.funcs
  options : after.options = before.options
  depth : after.depth = before.depth

namespace Machine.Steady

variable {m m' m'' : Machine}

theorem trans (first : m.Steady m') (second : m'.Steady m'') : m.Steady m'' where
  funcs := second.funcs.trans first.funcs
  options := second.options.trans first.options
  depth := second.depth.trans first.depth

theorem staysOut (steady : m.Steady m') (staysOut : m.store.StaysOut) : m'.store.StaysOut := by
  intro addr f found
  rw [steady.funcs] at found
  exact staysOut addr f found

end Machine.Steady

/-- What goes the same way under any two limits goes the same way under one limit twice, and
so leaves the machine steady. -/
theorem Leeway.Tracks.steady {α : Type} {action : Run α} {m m' : Machine} {a : α}
    (tracks : ∀ l depth, Leeway.Tracks l depth action) (staysOut : m.store.StaysOut)
    (ran : action m = .ok a m') : m.Steady m' := by
  let even : Leeway := ⟨m.store.funcs, m.options, m.options, Nat.le_refl _, rfl, staysOut⟩
  rcases (tracks even m.depth m m ⟨rfl, rfl, rfl, rfl⟩).exists_eq with
    ⟨_, _, _, ran', -, twins⟩ | ⟨_, _, _, ran', -⟩ | ⟨_, _, ran', -⟩
  · cases ran.symm.trans ran'
    exact ⟨twins.funcs, twins.options, twins.depth⟩
  · cases ran.symm.trans ran'
  · cases ran.symm.trans ran'

namespace Run

open Leeway

variable {fuel left active : Nat} {root w w' : Work} {m m' m'' : Machine}

namespace Work.Begins

/-- The machine's counter rises by the calls that become active. -/
theorem counted (begins : w.Begins fuel m w' m') (staysOut : m.store.StaysOut) :
    { m with depth := m.depth + w.calls }.Steady m' := by
  cases begins with
  | invoked | admitted | ofModule | inFrame | first => exact ⟨rfl, rfl, rfl⟩
  | entered popped _ => exact Tracks.steady (fun _ _ => popValues_tracks _) staysOut popped
  | next ran => exact Tracks.steady (fun l _ => (allTracks l fuel).instruction _ _) staysOut ran
  | block _ found => exact Tracks.steady (fun _ _ => blockSignature_tracks _) staysOut found
  | loop _ found => exact Tracks.steady (fun _ _ => blockSignature_tracks _) staysOut found
  | ifElse _ popped found =>
      have first := Tracks.steady (fun _ _ => popI32_tracks) staysOut popped
      exact first.trans <|
        Tracks.steady (fun _ _ => blockSignature_tracks _) (first.staysOut staysOut) found
  | direct _ found => exact Tracks.steady (fun _ _ => .step (callTarget_writes _)) staysOut found
  | indirect _ found =>
      exact Tracks.steady (fun _ _ => .step (indirectTarget_writes _ _)) staysOut found
  | labelled popped =>
      have steady := Tracks.steady (fun _ _ => popValues_tracks _) staysOut popped
      exact ⟨steady.funcs, steady.options, steady.depth⟩
  | @again label _ _ args _ m' _ popped ran =>
      have first := Tracks.steady (fun _ _ => popValues_tracks _) staysOut popped
      have marked : m.Steady
          { m' with stack := (m'.stack.mark (.label label)).pushValues args } :=
        ⟨first.funcs, first.options, first.depth⟩
      exact marked.trans <|
        Tracks.steady (fun l _ => (allTracks l fuel).sequence _ _) (marked.staysOut staysOut) ran

/-- A call becomes active only while there is room. -/
theorem room (begins : w.Begins fuel m w' m') (below : m.depth ≤ m.options.callLimit) :
    m.depth + w.calls ≤ m.options.callLimit := by
  cases begins with
  | admitted _ room => exact room
  | _ => exact below

end Work.Begins

/-! ## Traps -/

namespace Traps

variable {α β : Type} {t : Trap} {action : Run α} {next : α → Run β} {a : α}

theorem exists_eq (traps : Traps t action m) : ∃ m', action m = .error (.trap t) m' := by
  unfold Traps Ends at traps
  split at traps
  · exact traps.elim
  · next stop m' ran => exact ⟨m', traps ▸ ran⟩

theorem of_eq (ran : action m = .error (.trap t) m') : Traps t action m := by
  unfold Traps Ends
  rw [ran]

theorem bind (traps : Traps t action m) : Traps t (action >>= next) m :=
  Ends.bind traps fun _ _ nothing => nothing.elim

theorem step (ran : action m = .ok a m') (traps : Traps t (next a) m') :
    Traps t (action >>= next) m := Ends.step ran traps

end Traps

/-- A trap is never caught: the work that began what traps traps as well. -/
theorem Work.Begins.traps {t : Trap} (begins : w.Begins fuel m w' m')
    (traps : w'.Traps fuel t m') : w.Traps (fuel + 1) t m := by
  cases begins with
  | invoked found fits =>
      obtain ⟨m', ran⟩ := Traps.exists_eq traps
      apply Traps.of_eq
      rw [Run.invoke]
      simp only [found, Option.map_some, fits, Bool.not_true, Bool.false_eq_true, if_false, ran]
      rfl
  | admitted found room =>
      obtain ⟨m', ran⟩ := Traps.exists_eq traps
      apply Traps.of_eq
      rw [Run.call]
      simp only [found, if_neg (Nat.not_le.mpr room), ran]
      rfl
  | ofModule =>
      show Run.Traps _ _ _
      rw [Run.function]
      exact traps
  | entered popped zeros =>
      show Run.Traps _ _ _
      rw [Run.code]
      refine Traps.step popped ?_
      simp only [zeros]
      exact Traps.step rfl (Traps.bind traps)
  | inFrame =>
      obtain ⟨m', ran⟩ := Traps.exists_eq traps
      apply Traps.of_eq
      rw [Run.framed]
      simp only [ran]
      rfl
  | first =>
      show Run.Traps _ _ _
      rw [Run.sequence]
      exact Traps.bind traps
  | next ran =>
      show Run.Traps _ _ _
      rw [Run.sequence]
      exact Traps.step ran traps
  | block is found =>
      show Run.Traps _ _ _
      rw [Run.instruction, is]
      exact Traps.step found traps
  | loop is found =>
      show Run.Traps _ _ _
      rw [Run.instruction, is]
      exact Traps.step found traps
  | ifElse is popped found =>
      show Run.Traps _ _ _
      rw [Run.instruction, is]
      exact Traps.step popped (Traps.step found traps)
  | direct is found =>
      show Run.Traps _ _ _
      rw [Run.instruction, is]
      exact Traps.step found (Traps.bind traps)
  | indirect is found =>
      show Run.Traps _ _ _
      rw [Run.instruction, is]
      exact Traps.step found (Traps.bind traps)
  | labelled popped =>
      show Run.Traps _ _ _
      rw [Run.construct]
      exact Traps.step popped (Traps.step rfl (Traps.step rfl (Traps.bind traps)))
  | again popped ran =>
      show Run.Traps _ _ _
      rw [Run.construct]
      exact Traps.step popped (Traps.step rfl (Traps.step rfl (Traps.step ran traps)))

/-- So a trap at any moment is how the whole run ends. -/
theorem Moment.traps {t : Trap} (moment : Moment fuel root m left active w m')
    (traps : w.Traps left t m') : root.Traps fuel t m := by
  induction moment with
  | start => exact traps
  | step _ begins ih => exact ih (begins.traps traps)

/-! ## The counts at a moment -/

/-- What holds at every moment of a run that starts with no active call. -/
structure Counted (m : Machine) (active : Nat) (m' : Machine) : Prop where
  funcs : m'.store.funcs = m.store.funcs
  options : m'.options = m.options
  depth : m'.depth = active
  room : active ≤ m.options.callLimit

/-- The two counts of active calls agree at every moment, and they keep to the limit. -/
theorem Moment.counted (moment : Moment fuel root m left active w m') (idle : m.depth = 0)
    (staysOut : m.store.StaysOut) : Counted m active m' := by
  induction moment with
  | start => exact ⟨rfl, rfl, idle, Nat.zero_le _⟩
  | @step left active w w' m' m'' _ begins ih =>
      have still : m'.store.StaysOut := fun addr f found =>
        staysOut addr f (ih.funcs ▸ found)
      have steady := begins.counted still
      have room := begins.room (by rw [ih.depth, ih.options]; exact ih.room)
      rw [ih.depth, ih.options] at room
      refine ⟨steady.funcs.trans ih.funcs, steady.options.trans ih.options, ?_, room⟩
      rw [steady.depth, ih.depth]

/-- A call to a function of the store is refused when the limit is reached, and only then. -/
theorem call_refused_iff {addr : Addr} (inside : addr < m.store.funcs.size) :
    (∀ fuel, call (fuel + 1) addr m = .error (.trap .callStackExhausted) m) ↔
      m.options.callLimit ≤ m.depth := by
  have found := Array.getElem?_eq_getElem inside
  constructor
  · intro refused
    have ran := refused 0
    rw [Run.call] at ran
    simp only [found] at ran
    by_contra room
    rw [if_neg room, Run.function] at ran
    cases ran
  · intro full fuel
    rw [Run.call]
    simp only [found]
    rw [if_pos full]

end Run

/-! ## The limit -/

/-- The machine with a limit on the number of active calls. -/
def Machine.limited (n : Nat) (m : Machine) : Machine :=
  { m with options := { m.options with maxCallDepth := n } }

theorem Machine.callLimit_limited {n : Nat} (positive : 1 ≤ n) (m : Machine) :
    (m.limited n).options.callLimit = n := by
  show (if (n : Int) ≤ 0 then 1000 else (n : Int).toNat) = n
  rw [if_neg (by omega), Int.toNat_natCast]

namespace Run

variable {m : Machine}

/-- An invocation that is not cut short goes the same way when there is more room. -/
theorem invoke_roomier {n n' : Nat} (positive : 1 ≤ n) (wider : n ≤ n')
    (staysOut : m.store.StaysOut) (fuel : Nat) (addr : Addr) (args : List (Option Value)) :
    match invoke fuel addr args (m.limited n) with
    | .ok results m' => invoke fuel addr args (m.limited n') = .ok results (m'.limited n')
    | .error stop m' => ¬ stop.Cut →
        invoke fuel addr args (m.limited n') = .error stop (m'.limited n') := by
  have room : (m.limited n).options.callLimit ≤ (m.limited n').options.callLimit := by
    rwa [m.callLimit_limited positive, m.callLimit_limited (Nat.le_trans positive wider)]
  let l : Leeway :=
    ⟨m.store.funcs, (m.limited n).options, (m.limited n').options, room, rfl, staysOut⟩
  have same : ∀ m' : Machine, m'.options = (m.limited n).options →
      { m' with options := (m.limited n').options } = m'.limited n' := by
    intro m' options
    simp only [Machine.limited, options]
  have tracks := l.invoke_tracks m.depth fuel addr args
  rcases (tracks (m.limited n) (m.limited n') ⟨rfl, rfl, rfl, rfl⟩).exists_eq with
    ⟨results, m', _, ran, ran', -, options, -, rfl⟩ |
    ⟨stop, m', _, ran, ran', -, options, -, rfl⟩ | ⟨stop, m', ran, cut⟩
  · simp only [ran, ran']
    rw [same m' options]
  · simp only [ran, ran']
    rw [same m' options]
    exact fun _ => rfl
  · simp only [ran]
    exact fun whole => absurd cut whole

/-- The limit on the number of active calls only ever cuts runs short. In a store whose host
functions do not call back, no more calls than the limit allows are active at any moment; a
call is refused when that many are active, which ends the whole run, and is refused for no
other reason; and an invocation that neither ran into the limit nor out of fuel gives under
any larger limit the same results or the same failure, and leaves the same machine. -/
theorem invoke_limited {n n' : Nat} (positive : 1 ≤ n) (wider : n ≤ n') (idle : m.depth = 0)
    (staysOut : m.store.StaysOut) (fuel : Nat) (addr : Addr) (args : List (Option Value)) :
    (∀ left active w m', Moment fuel (.invoke addr args) (m.limited n) left active w m' →
      active ≤ n ∧ m'.depth = active) ∧
    (∀ left active callee m',
      Moment fuel (.invoke addr args) (m.limited n) left active (.call callee) m' →
      callee < m.store.funcs.size →
      ((∀ more, call (more + 1) callee m' = .error (.trap .callStackExhausted) m') ↔ active = n) ∧
        (active = n → 0 < left → ∃ m'', invoke fuel addr args (m.limited n)
          = .error (.trap .callStackExhausted) m'')) ∧
    match invoke fuel addr args (m.limited n) with
    | .ok results m' => invoke fuel addr args (m.limited n') = .ok results (m'.limited n')
    | .error stop m' => stop ≠ .outOfFuel → stop ≠ .trap .callStackExhausted →
        invoke fuel addr args (m.limited n') = .error stop (m'.limited n') := by
  have limit := m.callLimit_limited positive
  refine ⟨fun left active w m' moment => ?_, fun left active callee m' moment inside => ?_, ?_⟩
  · have counted := moment.counted idle staysOut
    exact ⟨limit ▸ counted.room, counted.depth⟩
  · have counted := moment.counted idle staysOut
    have full : m'.options.callLimit ≤ m'.depth ↔ active = n := by
      rw [counted.options, counted.depth, limit]
      have room := counted.room
      omega
    have there : callee < m'.store.funcs.size := by rwa [counted.funcs]
    have refused := (call_refused_iff there).trans full
    refine ⟨refused, fun reached fueled => ?_⟩
    obtain ⟨rest, rfl⟩ := Nat.exists_eq_add_of_lt fueled
    have traps : Work.Traps (0 + rest + 1) .callStackExhausted (.call callee) m' :=
      Traps.of_eq (refused.mpr reached (0 + rest))
    exact Traps.exists_eq (moment.traps traps)
  · have roomier := invoke_roomier positive wider staysOut fuel addr args
    split at roomier
    · exact roomier
    · intro fueled room
      refine roomier fun cut => ?_
      cases cut with
      | outOfFuel => exact fueled rfl
      | callStackExhausted => exact room rfl

/-- A machine whose first function calls the second one, which records a number and gives
it. -/
def nestedMachine : Machine :=
  { (Embedding.new {}).linker.machine with
    store :=
      { funcs := #[
          .code ⟨some 0, ⟨[], [.i32]⟩, [], [.plain Opcode.call (some (.call 1))]⟩,
          .code ⟨some 0, ⟨[], [.i32]⟩, [],
            [.plain Opcode.i32Const (some (.i32 7)), .plain Opcode.call (some (.call 2)),
              .plain Opcode.i32Const (some (.i32 7))]⟩,
          .host ⟨"log", ⟨[.i32], []⟩, HostBehaviour.logging "log"⟩]
        instances := #[{ funcs := #[0, 1, 2] }] } }

/-- No host function of it calls back. -/
theorem staysOut_nestedMachine : nestedMachine.store.StaysOut := by
  intro addr f found args
  match addr with
  | 0 => cases found
  | 1 => cases found
  | 2 =>
      cases found
      exact .record _ (.finish _)
  | addr + 3 => cases found

/-- Three calls are active in the end. With room for three the number comes out, and so it does
with room for five; with room for two it does not. -/
theorem invoke_limited_nestedMachine :
    (∃ m', invoke 20 0 [] (nestedMachine.limited 3) = .ok [.i32 7] m' ∧
      invoke 20 0 [] (nestedMachine.limited 5) = .ok [.i32 7] (m'.limited 5)) ∧
    (outcome (invoke 20 0 []) (nestedMachine.limited 2)).toOption = none := by
  have whole := @invoke_limited nestedMachine 3 5 (by decide) (by decide) rfl
    staysOut_nestedMachine 20 0 []
  have given : (outcome (invoke 20 0 []) (nestedMachine.limited 3)).toOption = some [.i32 7] := by
    decide +kernel
  refine ⟨?_, by decide +kernel⟩
  unfold outcome at given
  cases ran : invoke 20 0 [] (nestedMachine.limited 3) with
  | error stop m' =>
      rw [ran] at given
      cases given
  | ok results m' =>
      rw [ran] at given whole
      cases given
      exact ⟨m', rfl, whole.2.2⟩

end Run

end WasmMachine
