/-
# The stacks of the checker stay in layers

At every step of the check of a function body there is a construct, no construct was entered at a
lower height than one around it, and the operands reach to the height of the innermost one.  The
operands below a construct stay as they are until it is left.  So the checker never looks past
the end of a list, whatever code it is given, and it comes to its verdict in finitely many steps.
-/

import WasmMachine.Proofs.Typing.Jobs

namespace WasmMachine.Typing

open Checker

variable {ctx : Context}

namespace Config

variable {c d e : Config} {job : Job} {rest new : List Job} {s s' : Checker} {v : Violation}

theorem next_of_step (ran : job.step ctx s = .ok (new, s')) :
    Next ctx ⟨s, job :: rest⟩ ⟨s', new ++ rest⟩ := by
  simp only [Next, step, ran]
  rfl

theorem stops_of_step (ran : job.step ctx s = .error v) : Stops ctx ⟨s, job :: rest⟩ v := by
  simp only [Stops, step, ran]
  rfl

/-- A step that finds the stacks in layers, and leaves alone what is below the innermost
construct. -/
structure Proceeds (ctx : Context) (c d : Config) : Prop where
  next : Next ctx c d
  layered : c.checker.Layered
  keeps : KeepsBelow c.checker.height c.checker d.checker
  shifts : Shifts c.checker d.checker

/-- Some such steps. -/
def Path (ctx : Context) : Config → Config → Prop := Relation.ReflTransGen (Proceeds ctx)

theorem Path.refl : Path ctx c c := Relation.ReflTransGen.refl

theorem Path.trans (first : Path ctx c d) (second : Path ctx d e) : Path ctx c e :=
  Relation.ReflTransGen.trans first second

theorem Proceeds.path (proceeds : Proceeds ctx c d) : Path ctx c d :=
  Relation.ReflTransGen.single proceeds

/-- Inside one construct. -/
theorem proceeds_inside {f : Frame} (layered : f.Layered) {operands operands' : List ValType}
    {unreachable unreachable' : Bool}
    (ran : job.step ctx (f.state operands unreachable) =
      .ok (new, f.state operands' unreachable')) :
    Proceeds ctx ⟨f.state operands unreachable, job :: rest⟩
      ⟨f.state operands' unreachable', new ++ rest⟩ where
  next := next_of_step ran
  layered := layered.state
  keeps := Frame.keepsBelow
  shifts := .stays rfl

/-- The jobs in front of `rest` lead to where a step of the checker leads: to the same state, of
which it is known where it is, or to the same violation. -/
inductive Arrives (ctx : Context) (c : Config) (place : Checker → Prop) (rest : List Job) :
    Except Violation (Unit × Checker) → Prop
  | passed {s : Checker} : place s → Path ctx c ⟨s, rest⟩ → Arrives ctx c place rest (.ok ((), s))
  | refused {d : Config} {v : Violation} :
      Path ctx c d → d.checker.Layered → Stops ctx d v → v.kind ≠ .lookup →
      Arrives ctx c place rest (.error v)

theorem Path.arrives {place : Checker → Prop} {outcome : Except Violation (Unit × Checker)}
    (path : Path ctx c d) (arrives : Arrives ctx d place rest outcome) :
    Arrives ctx c place rest outcome := by
  cases arrives with
  | passed there done => exact .passed there (path.trans done)
  | refused reached layered stops kind => exact .refused (path.trans reached) layered stops kind

theorem Arrives.mono {place place' : Checker → Prop} {outcome : Except Violation (Unit × Checker)}
    (arrives : Arrives ctx c place rest outcome) (weaker : ∀ s, place s → place' s) :
    Arrives ctx c place' rest outcome := by
  cases arrives with
  | passed there path => exact .passed (weaker _ there) path
  | refused path layered stops kind => exact .refused path layered stops kind

theorem Arrives.bind {place place' : Checker → Prop} {middle : List Job} {x y : Check Unit}
    (first : Arrives ctx c place middle (x s))
    (others : ∀ s', place s' → Arrives ctx ⟨s', middle⟩ place' rest (y s')) :
    Arrives ctx c place' rest ((x >>= fun _ => y) s) := by
  have split : (x >>= fun _ => y) s = x s >>= fun (_, s') => y s' := rfl
  rw [split]
  generalize x s = outcome at first
  cases first with
  | passed there path => exact path.arrives (others _ there)
  | refused path layered stops kind => exact .refused path layered stops kind

end Config

open Config

/-- Inside the construct of a frame. -/
def Frame.Surrounds (f : Frame) (s : Checker) : Prop :=
  ∃ operands unreachable, s = f.state operands unreachable

/-- The jobs carry out a step of the checker, inside any construct and in front of any other
jobs, and stay inside the construct. -/
def Carries (ctx : Context) (jobs : List Job) (x : Check Unit) : Prop :=
  ∀ f : Frame, f.Layered → ∀ (s : Checker) (rest : List Job), f.Surrounds s →
    Arrives ctx ⟨s, jobs ++ rest⟩ f.Surrounds rest (x s)

namespace Carries

open Check

variable {job : Job} {jobs jobs' : List Job} {x y : Check Unit}

theorem nil : Carries ctx [] (Pure.pure ()) :=
  fun _ _ _ _ inside => .passed inside .refl

theorem append (first : Carries ctx jobs x) (second : Carries ctx jobs' y) :
    Carries ctx (jobs ++ jobs') (x >>= fun _ => y) := by
  intro f layered s rest inside
  rw [List.append_assoc]
  exact (first f layered s (jobs' ++ rest) inside).bind
    fun s' inside' => second f layered s' rest inside'

theorem cons (first : Carries ctx [job] x) (second : Carries ctx jobs y) :
    Carries ctx (job :: jobs) (x >>= fun _ => y) :=
  append first second

theorem forM {α : Type} {items : List α} {toJob : α → Job} {each : α → Check PUnit}
    (carries : ∀ a, Carries ctx [toJob a] (each a)) :
    Carries ctx (items.map toJob) (items.forM each) := by
  induction items with
  | nil => exact nil
  | cons a items ih => exact cons (carries a) ih

/-- A job that begins as a step of the checker begins, and leaves the rest of it to others. -/
theorem step {α : Type} {first : Check α} {new : α → List Job} {next : α → Check Unit}
    (is : job.step ctx = first >>= fun a => Pure.pure (new a)) (steady : Steady first)
    (others : ∀ a, Carries ctx (new a) (next a)) : Carries ctx [job] (first >>= next) := by
  rintro f layered _ rest ⟨operands, unreachable, rfl⟩
  obtain ⟨decides, stays⟩ := steady f operands unreachable
  have split : (first >>= next) (f.state operands unreachable) =
      first (f.state operands unreachable) >>= fun (a, s') => next a s' := rfl
  have does : job.step ctx (f.state operands unreachable) =
      first (f.state operands unreachable) >>= fun (a, s') => Except.ok (new a, s') := by
    rw [is]
    rfl
  cases ran : first (f.state operands unreachable) with
  | error v =>
      rw [split, ran]
      rw [ran] at does
      exact .refused .refl layered.state (stops_of_step does) (decides v ran)
  | ok out =>
      obtain ⟨a, s'⟩ := out
      obtain ⟨operands', unreachable', rfl⟩ := stays a s' ran
      rw [split, ran]
      rw [ran] at does
      exact (proceeds_inside layered does).path.arrives
        (others a f layered _ rest ⟨operands', unreachable', rfl⟩)

/-- A job that does all of a step of the checker. -/
theorem whole (is : job.step ctx = x >>= fun _ => Pure.pure []) (steady : Steady x) :
    Carries ctx [job] x := by
  have carries : Carries ctx [job] (x >>= fun _ => Pure.pure ()) :=
    step is steady fun _ => nil
  simpa using carries

/-- A job that only says by which others it is carried out. -/
theorem opens (is : job.step ctx = Pure.pure jobs) (carries : Carries ctx jobs x) :
    Carries ctx [job] x := by
  have opened : Carries ctx [job] (Pure.pure () >>= fun _ => x) :=
    step (by simp [is]) (.pure ()) fun _ => carries
  simpa using opened

end Carries

namespace Check

variable {op : UInt8} {f : Frame} {operands : List ValType} {unreachable : Bool}

/-! ## Operands -/

theorem carries_take {want : ValType} :
    Carries ctx [.take op want] (discard (popExpect op want)) :=
  .whole rfl steady_popExpect.discard

theorem carries_takes {types : List ValType} : Carries ctx (Job.takes op types) (popAll op types) :=
  .forM fun _ => carries_take

theorem carries_push {types : List ValType} : Carries ctx [.push types] (push types) :=
  .whole rfl steady_push

/-- There is enough to drop: the operands reach to the height of the construct. -/
theorem carries_setUnreachable : Carries ctx [.setUnreachable] setUnreachable := by
  rintro f layered _ rest ⟨operands, unreachable, rfl⟩
  have filled : f.construct.height ≤ (f.state operands unreachable).operands.length :=
    layered.state.filled
  have does : Job.setUnreachable.step ctx (f.state operands unreachable) =
      .ok ([], f.state [] true) := by
    rw [Job.step, bind_of_ok current_state, bind_of_ok get_state, if_neg (Nat.not_lt.mpr filled)]
    exact bind_of_ok setUnreachable_state
  rw [setUnreachable_state]
  exact .passed ⟨[], true, rfl⟩ (proceeds_inside layered does).path

theorem carries_jump {types : List ValType} :
    Carries ctx (Job.takes op types ++ [.setUnreachable]) (do popAll op types; setUnreachable) :=
  .append carries_takes carries_setUnreachable

theorem carries_signature (type : FuncType) :
    Carries ctx (Job.takes op type.params ++ [.push type.results]) (applySignature op type) :=
  .append carries_takes carries_push

/-! ## Instructions without nested instructions -/

theorem bind_of_error {α β : Type} {first : Check α} {next : α → Check β} {s : Checker}
    {v : Violation} (ran : first s = .error v) : (first >>= next) s = .error v := by
  have split : (first >>= next) s = first s >>= fun (a, middle) => next a middle := rfl
  rw [split, ran]
  rfl

/-- What is put back are the operands of before, so that what is below them is in place. -/
theorem arrives_restore {rest : List Job} (layered : f.Layered) (saved : List ValType)
    (operands : List ValType) (unreachable : Bool) :
    Arrives ctx ⟨f.state operands unreachable, .restore (saved ++ f.below) :: rest⟩ f.Surrounds rest
      ((modify fun s => { s with operands := saved ++ f.below } : Check Unit)
        (f.state operands unreachable)) := by
  have does : (Job.restore (saved ++ f.below)).step ctx (f.state operands unreachable) =
      .ok ([], f.state saved unreachable) := rfl
  exact .passed ⟨saved, unreachable, rfl⟩ (proceeds_inside layered does).path

/-- The operands that a label of a branch table takes are put back. -/
theorem carries_target {arity : Nat} {depth : UInt32} :
    Carries ctx [.target op arity depth] (target op arity depth) := by
  rintro f layered _ rest ⟨operands, unreachable, rfl⟩
  unfold target
  cases ran : label depth (f.state operands unreachable) with
  | error v =>
      rw [bind_of_error ran]
      exact .refused .refl layered.state (stops_of_step (bind_of_error ran))
        ((steady_label f operands unreachable).1 v ran)
  | ok out =>
      obtain ⟨c, s'⟩ := out
      obtain ⟨-, rfl⟩ := labels_of_label ran
      rw [bind_of_ok ran]
      have begins : (Job.target op arity depth).step ctx (f.state operands unreachable) =
          (do
            if c.labelTypes.length ≠ arity then
              refuse (.labelArity op depth c.labelTypes.length arity)
            let s ← get
            return Job.takes op c.labelTypes ++ [Job.restore s.operands] : Check (List Job))
              (f.state operands unreachable) := bind_of_ok ran
      by_cases same : c.labelTypes.length = arity
      · have does : (Job.target op arity depth).step ctx (f.state operands unreachable) =
            .ok (Job.takes op c.labelTypes ++ [.restore (operands ++ f.below)],
              f.state operands unreachable) := by
          refine begins.trans ?_
          rw [if_neg (not_not_intro same)]
          rfl
        rw [if_neg (not_not_intro same)]
        dsimp only
        rw [bind_of_ok get_state]
        refine (proceeds_inside layered does).path.arrives ?_
        rw [List.append_assoc]
        refine (carries_takes f layered _ _ ⟨operands, unreachable, rfl⟩).bind ?_
        rintro _ ⟨operands', unreachable', rfl⟩
        exact arrives_restore layered operands operands' unreachable'
      · have does : (Job.target op arity depth).step ctx (f.state operands unreachable) =
            .error (.labelArity op depth c.labelTypes.length arity) := by
          refine begins.trans ?_
          rw [if_pos same]
          rfl
        rw [if_pos same]
        exact .refused .refl layered.state (stops_of_step does) (by simp)

theorem carries_branchTable {depths : List UInt32} {fallback : UInt32} :
    Carries ctx [.take op .i32, .branchTable op depths fallback]
      (branchTable op depths fallback) := by
  have decided : Carries ctx [.branchTable op depths fallback] (do
      let last ← label fallback
      depths.forM (target op last.labelTypes.length)
      popAll op last.labelTypes
      setUnreachable) :=
    .step rfl steady_label fun _ => .append (.forM fun _ => carries_target) carries_jump
  exact .cons carries_take decided

theorem steady_chosen {upper lower : ValType} : Steady (Job.chosen op upper lower) := by
  have types : Steady (if upper = .unknown then pure lower
      else if lower = .unknown ∨ upper = lower then pure upper
      else refuse (.selectDiffers op lower upper) : Check ValType) :=
    .ite (.pure _) (.ite (.pure _) (.refuse (by simp)))
  exact .ite (.bind (.refuse (by simp)) fun _ => types) types

private theorem refuse_bind {α β : Type} (v : Violation) (next : α → Check β) :
    ((refuse v : Check α) >>= next) = refuse v := rfl

private theorem ite_bind {α β : Type} (c : Prop) [Decidable c] (x y : Check α)
    (next : α → Check β) :
    ((if c then x else y) >>= next) = if c then x >>= next else y >>= next := by
  split
  · rfl
  · rfl

private theorem select_eq : select op = (do
    discard (popExpect op .i32)
    let upper ← pop op
    let lower ← pop op
    let type ← Job.chosen op upper lower
    push [type]) := by
  simp only [select, Job.chosen, ite_bind, refuse_bind, pure_bind]

theorem carries_select : Carries ctx [.take op .i32, .upper op] (select op) := by
  have chooses (upper : ValType) : Steady (do
      let lower ← pop op
      Job.chosen op upper lower) :=
    steady_pop.bind fun _ => steady_chosen
  have second (upper : ValType) : Carries ctx [.lower op upper] (do
      let type ← (do
        let lower ← pop op
        Job.chosen op upper lower)
      push [type]) :=
    .step (by simp [Job.step]) (chooses upper) fun type => carries_push
  simp only [bind_assoc] at second
  rw [select_eq]
  exact .cons carries_take (.step rfl steady_pop second)

theorem carries_reference : Carries ctx [.reference op] (do
    let type ← pop op
    if type ≠ .unknown ∧ !type.isRef then refuse (.notReference op type)
    push [.i32]) := by
  have checks : Steady (do
      let type ← pop op
      if type ≠ .unknown ∧ !type.isRef then refuse (.notReference op type)) :=
    steady_pop.bind fun _ => .ite (.refuse (by simp)) (.pure _)
  have carries : Carries ctx [.reference op] ((do
      let type ← pop op
      if type ≠ .unknown ∧ !type.isRef then refuse (.notReference op type)) >>=
        fun _ => push [.i32]) :=
    .step (by simp only [Job.step, bind_assoc, ite_bind, refuse_bind, pure_bind]) checks
      fun _ => carries_push
  simpa only [bind_assoc, ite_bind, refuse_bind, pure_bind] using carries

theorem carries_plain {i : Instruction}
    (ordinary : (Job.instruction i).step ctx = Job.ofPlain ctx i) :
    Carries ctx [.instruction i] (plain ctx i) := by
  unfold Job.ofPlain at ordinary
  dsimp only at ordinary
  split at ordinary
  case h_1 is =>
    simp only [plain, is] at ordinary ⊢
    exact .opens ordinary carries_setUnreachable
  case h_2 is =>
    simp only [plain, is] at ordinary ⊢
    exact .step ordinary steady_label fun _ => carries_jump
  case h_3 is =>
    simp only [plain, is] at ordinary ⊢
    exact .step ordinary steady_label fun target =>
      .cons carries_take (carries_signature ⟨target.labelTypes, target.labelTypes⟩)
  case h_4 is =>
    simp only [plain, is] at ordinary ⊢
    exact .opens ordinary carries_branchTable
  case h_5 is =>
    simp only [plain, is] at ordinary ⊢
    exact .opens ordinary carries_jump
  case h_6 is =>
    simp only [plain, is] at ordinary ⊢
    exact .opens ordinary (.whole rfl steady_pop.discard)
  case h_7 is =>
    simp only [plain, is] at ordinary ⊢
    exact .opens ordinary carries_select
  case h_8 is =>
    simp only [plain, is] at ordinary ⊢
    exact .opens ordinary carries_reference
  case h_9 =>
    unfold plain
    dsimp only
    split
    case h_9 => exact .step ordinary (.lift (ctx.decides_signature i)) fun type =>
      carries_signature type
    all_goals contradiction

/-! ## Constructs -/

/-- What leaving a construct does once its results are taken. -/
private def closing (height : Nat) : Check Unit := do
  let s ← get
  if s.operands.length ≠ height then
    refuse (.leftOver Opcode.close (s.operands.length - height))
  set { s with constructs := s.constructs.tail }

/-- The last operand above the height is gone, and the construct goes. -/
private theorem arrives_close {rest : List Job} (layered : f.Layered) (operands : List ValType)
    (unreachable : Bool) :
    Arrives ctx ⟨f.state operands unreachable, .close :: rest⟩ (· = ⟨f.below, f.outer⟩) rest
      (closing f.construct.height (f.state operands unreachable)) := by
  by_cases full : (f.state operands unreachable).operands.length = f.construct.height
  · have none : operands = [] := by
      simpa [Frame.state, f.height] using full
    subst none
    have does : Job.close.step ctx (f.state [] unreachable) = .ok ([], ⟨f.below, f.outer⟩) := by
      rw [Job.step, bind_of_ok current_state, bind_of_ok get_state, if_neg (not_not_intro full)]
      rfl
    have closed : closing f.construct.height (f.state [] unreachable) =
        .ok ((), ⟨f.below, f.outer⟩) := by
      rw [closing, bind_of_ok get_state, if_neg (not_not_intro full)]
      rfl
    rw [closed]
    refine .passed rfl (Proceeds.path ?_)
    exact
      { next := next_of_step does
        layered := layered.state
        keeps := ⟨f.below, f.height.symm, List.suffix_append _ _, List.suffix_refl _⟩
        shifts := .leaves rfl }
  · have does : Job.close.step ctx (f.state operands unreachable) =
        .error (.leftOver Opcode.close
          ((f.state operands unreachable).operands.length - f.construct.height)) := by
      rw [Job.step, bind_of_ok current_state, bind_of_ok get_state, if_pos full]
      rfl
    have refused : closing f.construct.height (f.state operands unreachable) =
        .error (.leftOver Opcode.close
          ((f.state operands unreachable).operands.length - f.construct.height)) := by
      rw [closing, bind_of_ok get_state, if_pos full]
      rfl
    rw [refused]
    exact .refused .refl layered.state (stops_of_step does) (by simp)

/-- A construct that is left leaves behind what was there before it was entered. -/
theorem arrives_leave {rest : List Job} (layered : f.Layered) (s : Checker)
    (inside : f.Surrounds s) :
    Arrives ctx ⟨s, .leave :: rest⟩ (· = ⟨f.below, f.outer⟩) rest (leave s) := by
  obtain ⟨operands, unreachable, rfl⟩ := inside
  have does : Job.leave.step ctx (f.state operands unreachable) =
      .ok (Job.takes Opcode.close f.construct.results ++ [.close],
        f.state operands unreachable) := by
    rw [Job.step, bind_of_ok current_state]
    rfl
  have leaves : leave (f.state operands unreachable) =
      (popAll Opcode.close f.construct.results >>= fun _ => closing f.construct.height)
        (f.state operands unreachable) := by
    rw [leave, bind_of_ok current_state]
    rfl
  rw [leaves]
  refine (proceeds_inside layered does).path.arrives ?_
  rw [List.append_assoc]
  refine (carries_takes f layered _ _ ⟨operands, unreachable, rfl⟩).bind ?_
  rintro _ ⟨operands', unreachable', rfl⟩
  exact arrives_close layered operands' unreachable'

/-- A construct that is entered lies on top of all operands that are there. -/
theorem proceeds_enter (layered : f.Layered) (loop : Bool) (type : FuncType) (rest : List Job) :
    Proceeds ctx ⟨f.state operands unreachable, .enter loop type :: rest⟩
      ⟨(f.nest operands unreachable loop type).state type.params.reverse false, rest⟩ where
  next := by
    have does : (Job.enter loop type).step ctx (f.state operands unreachable) =
        .ok ([], (f.nest operands unreachable loop type).state type.params.reverse false) :=
      bind_of_ok enter_state
    exact next_of_step does
  layered := layered.state
  keeps := by
    refine ⟨f.below, f.height.symm, List.suffix_append _ _, ?_⟩
    exact (List.suffix_append operands f.below).trans (List.suffix_append _ _)
  shifts := .enters rfl

theorem carries_arm {loop : Bool} {type : FuncType} {body : List Instruction}
    (carries : Carries ctx (body.map .instruction) (sequence ctx body)) :
    Carries ctx (Job.arm loop type body) (arm ctx loop type body) := by
  rintro f layered _ rest ⟨operands, unreachable, rfl⟩
  have nested : (f.nest operands unreachable loop type).Layered := layered.nest loop type
  have jobs : Job.arm loop type body ++ rest =
      .enter loop type :: (body.map .instruction ++ .leave :: rest) := by
    simp [Job.arm]
  rw [jobs, arm, bind_of_ok enter_state]
  refine (proceeds_enter layered loop type _).path.arrives ?_
  refine (carries _ nested _ _ ⟨type.params.reverse, false, rfl⟩).bind ?_
  intro s inside
  refine (arrives_leave nested s inside).mono ?_
  rintro _ rfl
  exact ⟨operands, unreachable, rfl⟩

mutual

/-- The jobs of an instruction carry it out. -/
theorem carries_instruction : ∀ i : Instruction, Carries ctx [.instruction i] (instruction ctx i)
  | .node op immediate inner orElse => by
      have inside (loop : Bool) (type : FuncType) :
          Carries ctx (Job.arm loop type inner) (arm ctx loop type inner) :=
        carries_arm (carries_sequence inner)
      have construct (loop : Bool) (is : op = if loop then Opcode.loop else Opcode.block) :
          Carries ctx [.instruction (.node op immediate inner orElse)]
            (instruction ctx (.node op immediate inner orElse)) := by
        rw [instruction_block loop is]
        refine .step ?_ steady_blockSignature fun type =>
          .append carries_takes (.append (inside loop type) carries_push)
        cases loop
        · subst is
          rfl
        · subst is
          rfl
      by_cases block : op = Opcode.block
      · exact construct false block
      by_cases loop : op = Opcode.loop
      · exact construct true loop
      by_cases choice : op = Opcode.ifElse
      · subst choice
        rw [instruction_ifElse]
        exact .step rfl steady_blockSignature fun type =>
          .cons carries_take <| .append carries_takes <| .append (inside false type) <|
            .cons carries_push <| .append carries_takes <|
              .append (carries_arm (carries_sequence orElse)) carries_push
      rw [instruction_plain block loop choice]
      refine carries_plain ?_
      rw [Job.step, Job.ofInstruction]
      split
      · exact absurd ‹_› block
      · exact absurd ‹_› loop
      · exact absurd ‹_› choice
      · rfl

theorem carries_sequence : ∀ is : List Instruction,
    Carries ctx (is.map .instruction) (sequence ctx is)
  | [] => by
      rw [sequence]
      exact .nil
  | i :: rest => by
      rw [sequence]
      exact .cons (carries_instruction i) (carries_sequence rest)

end

end Check

/-! ## The whole check -/

namespace Config

variable {c d e : Config} {v w : Violation}

theorem Next.unique (first : Next ctx c d) (second : Next ctx c e) : d = e :=
  Except.ok.inj (Option.some.inj (first.symm.trans second))

theorem Stops.unique (first : Stops ctx c v) (second : Stops ctx c w) : v = w :=
  Except.error.inj (Option.some.inj (first.symm.trans second))

theorem Stops.not_next (stops : Stops ctx c v) : ¬ Next ctx c d := by
  intro next
  cases Option.some.inj (stops.symm.trans next)

theorem not_next_of_done (done : c.jobs = []) : ¬ Next ctx c d := by
  intro next
  obtain ⟨s, jobs⟩ := c
  subst done
  cases next

theorem not_stops_of_done (done : c.jobs = []) : ¬ Stops ctx c v := by
  intro stops
  obtain ⟨s, jobs⟩ := c
  subst done
  cases stops

theorem Path.reaches (path : Path ctx c d) : Reaches ctx c d :=
  Relation.ReflTransGen.mono (fun _ _ (proceeds : Proceeds ctx _ _) => proceeds.next) _ _ path

/-- There is one way to go, so whatever is reached lies on the way to the end. -/
theorem Path.of_reaches (path : Path ctx c e) (ends : ∀ d, ¬ Next ctx e d)
    (reaches : Reaches ctx c d) : Path ctx d e := by
  induction reaches with
  | refl => exact path
  | tail _ next ih =>
      rcases ih.cases_head with same | ⟨middle, proceeds, later⟩
      · subst same
        exact absurd next (ends _)
      · exact next.unique proceeds.next ▸ later

/-- A way that ends is the only one. -/
theorem Path.acc (path : Path ctx c e) (ends : ∀ d, ¬ Next ctx e d) :
    Acc (fun d c => Next ctx c d) c := by
  induction path using Relation.ReflTransGen.head_induction_on with
  | refl => exact .intro _ fun d next => absurd next (ends d)
  | head proceeds _ ih => exact .intro _ fun d next => next.unique proceeds.next ▸ ih

/-- The ways in which a check comes to its end. -/
inductive Ended (ctx : Context) (c : Config) : Except Violation Unit → Prop
  | done : c.jobs = [] → Ended ctx c (.ok ())
  | stopped {v : Violation} :
      c.checker.Layered → Stops ctx c v → v.kind ≠ .lookup → Ended ctx c (.error v)

theorem Ended.not_next {verdict : Except Violation Unit} (ended : Ended ctx c verdict) :
    ¬ Next ctx c d := by
  cases ended with
  | done done => exact not_next_of_done done
  | stopped _ stops _ => exact stops.not_next

/-- The check of a body proceeds to an end with the verdict of the checker. -/
theorem exists_ended (ctx : Context) (body : List Instruction) :
    ∃ e, Path ctx (start ctx body) e ∧ Ended ctx e (checkBody ctx body) := by
  have layered := Frame.layered_root ctx
  have arrives : Arrives ctx (start ctx body) (· = ⟨[], []⟩) []
      ((Check.sequence ctx body >>= fun _ => Check.leave) ((Frame.root ctx).state [] false)) :=
    (Check.carries_sequence body _ layered _ [.leave] ⟨[], false, rfl⟩).bind
      fun s inside => Check.arrives_leave layered s inside
  have split : checkBody ctx body =
      (Check.sequence ctx body >>= fun _ => Check.leave) ((Frame.root ctx).state [] false) >>=
        fun (u, _) => pure u := rfl
  rw [split]
  generalize (Check.sequence ctx body >>= fun _ => Check.leave)
    ((Frame.root ctx).state [] false) = outcome at arrives
  cases arrives with
  | passed _ path => exact ⟨_, path, .done rfl⟩
  | refused path layered stops kind => exact ⟨_, path, .stopped layered stops kind⟩

section Reached

variable {body : List Instruction}

/-- A configuration that is reached goes on, or it is the end. -/
theorem proceeds_or_ended (reaches : Reaches ctx (start ctx body) c) :
    (∃ d, Proceeds ctx c d) ∨ Ended ctx c (checkBody ctx body) := by
  obtain ⟨e, path, ended⟩ := exists_ended ctx body
  rcases (path.of_reaches (fun _ => ended.not_next) reaches).cases_head with same | ⟨d, next, -⟩
  · exact .inr (same ▸ ended)
  · exact .inl ⟨d, next⟩

theorem layered_of_reaches (reaches : Reaches ctx (start ctx body) c) (left : c.jobs ≠ []) :
    c.checker.Layered := by
  rcases proceeds_or_ended reaches with ⟨d, proceeds⟩ | ended
  · exact proceeds.layered
  · generalize checkBody ctx body = verdict at ended
    cases ended with
    | done done => exact absurd done left
    | stopped layered _ _ => exact layered

theorem proceeds_of_next (reaches : Reaches ctx (start ctx body) c) (next : Next ctx c d) :
    Proceeds ctx c d := by
  rcases proceeds_or_ended reaches with ⟨e, proceeds⟩ | ended
  · exact next.unique proceeds.next ▸ proceeds
  · exact absurd next ended.not_next

theorem ended_of_stops (reaches : Reaches ctx (start ctx body) c) (stops : Stops ctx c v) :
    checkBody ctx body = .error v ∧ v.kind ≠ .lookup := by
  rcases proceeds_or_ended reaches with ⟨d, proceeds⟩ | ended
  · exact absurd proceeds.next stops.not_next
  · generalize checkBody ctx body = verdict at ended
    cases ended with
    | done done => exact absurd stops (not_stops_of_done done)
    | stopped _ stops' kind =>
        obtain rfl := stops.unique stops'
        exact ⟨rfl, kind⟩

theorem ended_of_done (reaches : Reaches ctx (start ctx body) c) (done : c.jobs = []) :
    checkBody ctx body = .ok () := by
  rcases proceeds_or_ended reaches with ⟨d, proceeds⟩ | ended
  · exact absurd proceeds.next (not_next_of_done done)
  · generalize checkBody ctx body = verdict at ended
    cases ended with
    | done _ => rfl
    | stopped _ stops _ => exact absurd stops (not_stops_of_done done)

/-- As long as a construct is there, the operands below it are what they were, and the constructs
around it are at the heights at which they were. -/
theorem keepsBelow_of_stays (reaches : Reaches ctx (start ctx body) c)
    (layered : c.checker.Layered) (stays : Stays ctx c.checker.constructs.length c d) :
    Reaches ctx (start ctx body) d ∧ c.checker.heights <:+ d.checker.heights ∧
      KeepsBelow c.checker.height c.checker d.checker := by
  induction stays with
  | refl => exact ⟨reaches, List.suffix_refl _, .refl layered.filled⟩
  | @tail d e _ next ih =>
      obtain ⟨reached, around, keeps⟩ := ih
      have proceeds := proceeds_of_next reached next.1
      have below : c.checker.height ≤ d.checker.height :=
        proceeds.layered.le_height (around.subset layered.height_mem)
      refine ⟨reached.tail next.1, ?_, keeps.trans (proceeds.keeps.mono below)⟩
      cases proceeds.shifts with
      | stays same => rwa [same]
      | enters same =>
          rw [same]
          exact around.trans (List.suffix_cons _ _)
      | leaves same =>
          rw [same] at around
          rcases List.suffix_cons_iff.mp around with all | rest
          · have length := congrArg List.length all
            have deep : c.checker.constructs.length ≤ e.checker.constructs.length := next.2
            simp only [heights, List.length_map, List.length_cons] at length
            omega
          · exact rest

/-- An instruction that is accepted is done in some steps, and leaves the constructs that it
found. -/
theorem instruction_of_reaches {s s' : Checker} {i : Instruction} {rest : List Job}
    (reaches : Reaches ctx (start ctx body) ⟨s, .instruction i :: rest⟩)
    (accepted : Check.instruction ctx i s = .ok ((), s')) :
    Reaches ctx ⟨s, .instruction i :: rest⟩ ⟨s', rest⟩ ∧
      s'.constructs.length = s.constructs.length := by
  have layered : s.Layered := layered_of_reaches reaches (List.cons_ne_nil _ _)
  obtain ⟨f, operands, unreachable, frame, rfl⟩ := layered.exists_frame
  have carries : Carries ctx [.instruction i] (Check.instruction ctx i) :=
    Check.carries_instruction i
  have arrives := carries f frame _ rest ⟨operands, unreachable, rfl⟩
  rw [accepted] at arrives
  cases arrives with
  | passed inside path =>
      obtain ⟨operands', unreachable', rfl⟩ := inside
      exact ⟨path.reaches, rfl⟩

end Reached

end Config

open Config

/-- How the check of a body goes about its two stacks. -/
structure ChecksInLayers (ctx : Context) (body : List Instruction) : Prop where
  /-- Whenever something is left to do, the stacks are in layers. -/
  layered : ∀ c, Reaches ctx (start ctx body) c → c.jobs ≠ [] → c.checker.Layered
  /-- A step leaves the operands below the innermost construct as they are. -/
  keeps : ∀ c d, Reaches ctx (start ctx body) c → Next ctx c d →
    KeepsBelow c.checker.height c.checker d.checker
  /-- The operands below a construct, and the heights of those around it, are the same for as
  long as it is there. -/
  stays : ∀ c d, Reaches ctx (start ctx body) c → c.jobs ≠ [] →
    Stays ctx c.checker.constructs.length c d →
      c.checker.heights <:+ d.checker.heights ∧ KeepsBelow c.checker.height c.checker d.checker
  /-- An instruction that is accepted leaves as many constructs as it found. -/
  balanced : ∀ s i rest s', Reaches ctx (start ctx body) ⟨s, .instruction i :: rest⟩ →
    Check.instruction ctx i s = .ok ((), s') →
      Reaches ctx ⟨s, .instruction i :: rest⟩ ⟨s', rest⟩ ∧
        s'.constructs.length = s.constructs.length
  /-- No step looks past the end of a list. -/
  inside : ∀ c v, Reaches ctx (start ctx body) c → Stops ctx c v → v.kind ≠ .lookup
  /-- There is no endless run. -/
  terminates : Acc (fun d c => Next ctx c d) (start ctx body)
  /-- The run comes to its end where the checker accepts the body. -/
  accepts : checkBody ctx body = .ok () ↔ ∃ c, Reaches ctx (start ctx body) c ∧ c.jobs = []
  /-- It stops where the checker refuses the body, at the same violation. -/
  refuses : ∀ v, checkBody ctx body = .error v ↔
    ∃ c, Reaches ctx (start ctx body) c ∧ Stops ctx c v

/-- The check of any body in any context keeps its stacks in layers, looks past the end of no
list, and comes to its verdict. -/
theorem checkBody_inLayers (ctx : Context) (body : List Instruction) :
    ChecksInLayers ctx body := by
  obtain ⟨e, path, ended⟩ := exists_ended ctx body
  constructor
  case layered => exact fun c => layered_of_reaches
  case keeps => exact fun c d reaches next => (proceeds_of_next reaches next).keeps
  case stays =>
    intro c d reaches left stays
    exact (keepsBelow_of_stays reaches (layered_of_reaches reaches left) stays).2
  case balanced => exact fun s i rest s' => instruction_of_reaches
  case inside => exact fun c v reaches stops => (ended_of_stops reaches stops).2
  case terminates => exact path.acc fun _ => ended.not_next
  case accepts =>
    constructor
    · intro accepted
      rw [accepted] at ended
      cases ended with
      | done done => exact ⟨e, path.reaches, done⟩
    · rintro ⟨c, reaches, done⟩
      exact ended_of_done reaches done
  case refuses =>
    intro v
    constructor
    · intro refused
      rw [refused] at ended
      cases ended with
      | stopped _ stops _ => exact ⟨e, path.reaches, stops⟩
    · rintro ⟨c, reaches, stops⟩
      exact (ended_of_stops reaches stops).1

end WasmMachine.Typing
