/-
# The checker stays inside its lists

A check comes to a verdict unless it looks past the end of one of its lists.  Computing the
signature of an instruction looks everything up under a bound, so it always comes to one.  The
steps of the checker itself do not ask whether there is a construct around them, nor whether an
operand is there once the height of the construct says so.  They need not: the heights of the
constructs never increase from the operands inwards out, and every step keeps them as they are.

So a function body gets a verdict in any context whatsoever, whatever indices and immediates it
holds.
-/

import WasmMachine.Proofs.Typing.Steps

namespace WasmMachine.Typing

/-- Only a lookup behind the end of an index space is of the kind of a lookup. -/
@[simp]
theorem Violation.kind_eq_lookup {v : Violation} :
    v.kind = .lookup ↔ ∃ space index, v = .outside space index := by
  cases v <;> simp [kind]

/-- A check that comes to a verdict: it accepts, or it has something to hold against the code. -/
def Decides {α : Type} (x : Except Violation α) : Prop :=
  ∀ v, x = .error v → v.kind ≠ .lookup

namespace Decides

variable {α β : Type}

@[simp]
theorem ok (a : α) : Decides (.ok a) :=
  fun _ stopped => nomatch stopped

@[simp]
theorem pure (a : α) : Decides (Pure.pure a : Except Violation α) :=
  ok a

@[simp]
theorem error_iff {v : Violation} : Decides (.error v : Except Violation α) ↔ v.kind ≠ .lookup :=
  ⟨fun decides => decides v rfl, fun kind _ stopped => Except.error.inj stopped ▸ kind⟩

@[simp]
theorem throw_iff {v : Violation} :
    Decides (throw v : Except Violation α) ↔ v.kind ≠ .lookup :=
  error_iff

/-- One check behind another: the second counts where the first one accepts. -/
@[simp]
theorem bind_iff {x : Except Violation α} {next : α → Except Violation β} :
    Decides (x >>= next) ↔ Decides x ∧ ∀ a, x = .ok a → Decides (next a) := by
  cases x with
  | ok a => simp [bind, Except.bind]
  | error v => simp [bind, Except.bind]

@[simp]
theorem map_iff {x : Except Violation α} {f : α → β} : Decides (f <$> x) ↔ Decides x := by
  cases x with
  | ok a => simp [Functor.map, Except.map]
  | error v => simp [Functor.map, Except.map]

@[simp]
theorem ite_iff {c : Prop} [Decidable c] {x y : Except Violation α} :
    Decides (if c then x else y) ↔ (c → Decides x) ∧ (¬ c → Decides y) := by
  by_cases c <;> simp [*]

theorem forM {items : List α} {check : α → Except Violation PUnit}
    (each : ∀ a ∈ items, Decides (check a)) : Decides (items.forM check) := by
  induction items with
  | nil => exact pure _
  | cons a rest ih =>
      obtain ⟨here, others⟩ := List.forall_mem_cons.mp each
      exact bind_iff.mpr ⟨here, fun _ _ => ih others⟩

end Decides

/-! ## Signatures -/

/-- Index spaces are read under their own length. -/
@[simp]
theorem decides_entry {α : Type} (space : Space) (items : List α) (index : UInt32) :
    Decides (entry space items index) := by
  unfold entry
  split <;> simp

namespace Context

variable (ctx : Context)

@[simp]
theorem decides_needMemory : Decides ctx.needMemory := by
  unfold needMemory
  split <;> simp

@[simp]
theorem decides_needData (index : UInt32) : Decides (ctx.needData index) := by
  unfold needData
  split <;> simp

@[simp]
theorem decides_localType (index : UInt32) : Decides (ctx.localType index) := by
  unfold localType
  split <;> simp

@[simp]
theorem decides_accessSignature (op : UInt8) (align : UInt32) (width : Nat) (type : ValType)
    (store : Bool) : Decides (ctx.accessSignature op align width type store) := by
  unfold accessSignature checkAlignment
  simp

@[simp]
theorem decides_checkShuffle (op : UInt8) (bytes : Option V128) :
    Decides (checkShuffle op bytes) := by
  unfold checkShuffle
  split
  · simp
  · split <;> simp

@[simp]
theorem decides_miscSignature (op : UInt8) (sub : UInt32) (operands : List UInt32) :
    Decides (ctx.miscSignature op sub operands) := by
  unfold miscSignature
  split <;> simp

@[simp]
theorem decides_vectorSignature (op : UInt8) (imm : Instruction.VectorImmediate) :
    Decides (ctx.vectorSignature op imm) := by
  unfold vectorSignature
  split
  · simp
  · split
    · simp
    · split
      all_goals
        split
        all_goals simp

@[simp]
theorem decides_signature (i : Instruction) : Decides (ctx.signature i) := by
  unfold signature
  cases numeric : Numeric.Operation.ofOpcode i.opcode with
  | some op => simp [numeric]
  | none =>
      cases memory : MemoryAccess.ofOpcode i.opcode with
      | some access => simp [numeric, memory]
      | none =>
          simp only [numeric, memory]
          split
          case h_8 => split <;> simp
          all_goals simp

end Context

/-! ## Steps -/

namespace Check

variable {α β : Type} {ctx : Context} {op : UInt8}

theorem decides_bind {first : Check α} {next : α → Check β} {s : Checker}
    (decides : Decides (first s))
    (others : ∀ a s', first s = .ok (a, s') → Decides (next a s')) :
    Decides ((first >>= next) s) := by
  have split : (first >>= next) s = first s >>= fun (a, s') => next a s' := rfl
  rw [split, Decides.bind_iff]
  exact ⟨decides, fun (a, s') ran => others a s' ran⟩

/-- A step that comes to a verdict inside any construct, and leaves its surroundings alone. -/
def Steady (step : Check α) : Prop :=
  ∀ (f : Frame) (operands : List ValType) (unreachable : Bool),
    Decides (step (f.state operands unreachable)) ∧
      ∀ a s', step (f.state operands unreachable) = .ok (a, s') →
        ∃ operands' unreachable', s' = f.state operands' unreachable'

namespace Steady

theorem pure (a : α) : Steady (Pure.pure a) :=
  fun _ operands unreachable =>
    ⟨.ok _, fun _ _ ran => by
      cases ran
      exact ⟨operands, unreachable, rfl⟩⟩

theorem refuse {v : Violation} (kind : v.kind ≠ .lookup) : Steady (refuse v : Check α) :=
  fun _ _ _ => ⟨Decides.error_iff.mpr kind, fun _ _ ran => nomatch ran⟩

theorem bind {first : Check α} {next : α → Check β} (steady : Steady first)
    (others : ∀ a, Steady (next a)) : Steady (first >>= next) := by
  intro f operands unreachable
  obtain ⟨decides, stays⟩ := steady f operands unreachable
  constructor
  · refine decides_bind decides ?_
    intro a s ran
    obtain ⟨operands', unreachable', rfl⟩ := stays a s ran
    exact (others a f operands' unreachable').1
  · intro b s' ran
    obtain ⟨a, s, ran, ok⟩ := bind_eq_ok_iff.mp ran
    obtain ⟨operands', unreachable', rfl⟩ := stays a s ran
    exact (others a f operands' unreachable').2 b s' ok

theorem ite {c : Prop} [Decidable c] {x y : Check α} (yes : Steady x) (no : Steady y) :
    Steady (if c then x else y) := by
  split
  · exact yes
  · exact no

theorem discard {step : Check α} (steady : Steady step) : Steady (discard step) :=
  steady.bind fun _ => .pure _

theorem forM {items : List α} {each : α → Check PUnit} (steady : ∀ a, Steady (each a)) :
    Steady (items.forM each) := by
  induction items with
  | nil => exact .pure _
  | cons a rest ih => exact (steady a).bind fun _ => ih

theorem lift {x : Except Violation α} (decides : Decides x) : Steady (liftM x : Check α) := by
  intro f operands unreachable
  refine ⟨Decides.bind_iff.mpr ⟨decides, fun _ _ => .ok _⟩, ?_⟩
  intro a s' ran
  obtain ⟨-, rfl⟩ := lift_eq_ok_iff.mp ran
  exact ⟨operands, unreachable, rfl⟩

/-- A step that is known to give a state inside the construct. -/
theorem of_ok {step : Check α}
    (gives : ∀ (f : Frame) (operands : List ValType) (unreachable : Bool),
      ∃ a operands' unreachable', step (f.state operands unreachable) =
        .ok (a, f.state operands' unreachable')) : Steady step := by
  intro f operands unreachable
  obtain ⟨a, operands', unreachable', ran⟩ := gives f operands unreachable
  rw [ran]
  refine ⟨.ok _, ?_⟩
  intro _ _ same
  cases same
  exact ⟨operands', unreachable', rfl⟩

end Steady

/-- An operand is there whenever the height of the construct says so. -/
theorem steady_pop : Steady (pop op) := by
  intro f operands unreachable
  constructor
  · cases operands with
    | nil =>
        rw [pop_nil]
        exact Decides.ite_iff.mpr
          ⟨fun _ => .ok _, fun _ => Decides.error_iff.mpr (by simp)⟩
    | cons type rest =>
        rw [pop_cons]
        exact .ok _
  · intro got s' ran
    obtain ⟨rest, -, rfl⟩ := pop_eq_ok_iff.mp ran
    exact ⟨rest, unreachable, rfl⟩

theorem steady_popExpect {want : ValType} : Steady (popExpect op want) :=
  steady_pop.bind fun _ => .ite (.pure _)
    (.ite (.bind (.refuse (by simp)) fun _ => .pure _) (.pure _))

theorem steady_popAll {types : List ValType} : Steady (popAll op types) :=
  .forM fun _ => steady_popExpect.discard

theorem steady_push {types : List ValType} : Steady (push types) :=
  .of_ok fun _ _ _ => ⟨_, _, _, push_state⟩

theorem steady_applySignature {type : FuncType} : Steady (applySignature op type) :=
  steady_popAll.bind fun _ => steady_push

theorem steady_setUnreachable : Steady setUnreachable :=
  .of_ok fun _ _ _ => ⟨_, _, _, setUnreachable_state⟩

theorem steady_label {depth : UInt32} : Steady (label depth) := by
  intro f operands unreachable
  constructor
  · rw [label, bind_of_ok get_state]
    cases (f.state operands unreachable).constructs[depth.toNat]? with
    | some c => exact .ok _
    | none => exact Decides.error_iff.mpr (by simp)
  · intro c s' ran
    obtain ⟨-, rfl⟩ := labels_of_label ran
    exact ⟨operands, unreachable, rfl⟩

theorem steady_blockSignature {i : Instruction} : Steady (blockSignature ctx i) := by
  unfold blockSignature
  dsimp only
  split
  · exact .pure _
  · exact .refuse (by simp)

/-- The operands that a label of a branch table is checked against are put back. -/
theorem steady_target {arity : Nat} {depth : UInt32} : Steady (target op arity depth) := by
  intro f operands unreachable
  constructor
  · unfold target
    refine decides_bind (steady_label f operands unreachable).1 ?_
    intro c s ran
    obtain ⟨-, rfl⟩ := labels_of_label ran
    split
    · exact Decides.error_iff.mpr (by simp)
    · dsimp only
      rw [bind_of_ok get_state]
      exact decides_bind (steady_popAll f operands unreachable).1 fun _ _ _ => .ok _
  · intro _ s' ran
    obtain ⟨-, rfl⟩ := target_eq_ok_iff.mp ran
    exact ⟨operands, unreachable, rfl⟩

theorem steady_branchTable {depths : List UInt32} {fallback : UInt32} :
    Steady (branchTable op depths fallback) :=
  steady_popExpect.discard.bind fun _ => steady_label.bind fun _ =>
    (Steady.forM fun _ => steady_target).bind fun _ =>
      steady_popAll.bind fun _ => steady_setUnreachable

theorem steady_select : Steady (select op) := by
  have given (types : List ValType) : Steady (push types) := steady_push
  refine steady_popExpect.discard.bind fun _ => steady_pop.bind fun upper =>
    steady_pop.bind fun lower => ?_
  have chosen : Steady (if upper = .unknown then push [lower]
      else if lower = .unknown ∨ upper = lower then push [upper]
      else refuse (.selectDiffers op lower upper)) :=
    .ite (given _) (.ite (given _) (.refuse (by simp)))
  exact .ite (.bind (.refuse (by simp)) fun _ => chosen) chosen

theorem steady_plain {i : Instruction} : Steady (plain ctx i) := by
  unfold plain
  dsimp only
  split
  case h_1 => exact steady_setUnreachable
  case h_2 =>
    exact steady_label.bind fun _ => steady_popAll.bind fun _ => steady_setUnreachable
  case h_3 =>
    exact steady_label.bind fun _ => steady_popExpect.discard.bind fun _ => steady_applySignature
  case h_4 => exact steady_branchTable
  case h_5 => exact steady_popAll.bind fun _ => steady_setUnreachable
  case h_6 => exact steady_pop.discard
  case h_7 => exact steady_select
  case h_8 =>
    exact steady_pop.bind fun _ => .ite
      (.bind (.refuse (by simp)) fun _ => steady_push) steady_push
  case h_9 =>
    exact (Steady.lift (ctx.decides_signature i)).bind fun _ => steady_applySignature

/-- Leaving a construct comes to a verdict. -/
theorem decides_leave (f : Frame) (operands : List ValType) (unreachable : Bool) :
    Decides (leave (f.state operands unreachable)) := by
  rw [leave, bind_of_ok current_state]
  refine decides_bind (steady_popAll f operands unreachable).1 ?_
  intro _ s _
  rw [bind_of_ok get_state]
  split
  · exact Decides.error_iff.mpr (by simp)
  · exact .ok _

/-- A construct inside another one leaves the state in which it was entered. -/
theorem steady_arm {loop : Bool} {type : FuncType} {body : List Instruction}
    (steady : Steady (sequence ctx body)) : Steady (arm ctx loop type body) := by
  intro f operands unreachable
  obtain ⟨decides, stays⟩ :=
    steady (f.nest operands unreachable loop type) type.params.reverse false
  rw [arm, bind_of_ok enter_state]
  constructor
  · refine decides_bind decides ?_
    intro a s ran
    obtain ⟨operands', unreachable', rfl⟩ := stays a s ran
    exact decides_leave _ operands' unreachable'
  · intro _ s' ran
    obtain ⟨a, s, ran, ok⟩ := bind_eq_ok_iff.mp ran
    obtain ⟨operands', unreachable', rfl⟩ := stays a s ran
    obtain ⟨-, rfl⟩ := leave_eq_ok_iff.mp ok
    exact ⟨operands, unreachable, rfl⟩

mutual

theorem steady_instruction : ∀ i : Instruction, Steady (instruction ctx i)
  | .node op immediate inner orElse => by
      have inside (loop : Bool) (type : FuncType) : Steady (arm ctx loop type inner) :=
        steady_arm (steady_sequence inner)
      have construct (loop : Bool) (is : op = if loop then Opcode.loop else Opcode.block) :
          Steady (instruction ctx (.node op immediate inner orElse)) := by
        rw [instruction_block loop is]
        exact steady_blockSignature.bind fun type => steady_popAll.bind fun _ =>
          (inside loop type).bind fun _ => steady_push
      by_cases block : op = Opcode.block
      · exact construct false block
      by_cases loop : op = Opcode.loop
      · exact construct true loop
      by_cases choice : op = Opcode.ifElse
      · subst choice
        rw [instruction_ifElse]
        exact steady_blockSignature.bind fun type => steady_popExpect.discard.bind fun _ =>
          steady_popAll.bind fun _ => (inside false type).bind fun _ => steady_push.bind fun _ =>
            steady_popAll.bind fun _ => (steady_arm (steady_sequence orElse)).bind fun _ =>
              steady_push
      rw [instruction_plain block loop choice]
      exact steady_plain

theorem steady_sequence : ∀ is : List Instruction, Steady (sequence ctx is)
  | [] => by
      rw [sequence]
      exact .pure _
  | i :: rest => by
      rw [sequence]
      exact (steady_instruction i).bind fun _ => steady_sequence rest

end

end Check

/-- A function body gets a verdict in every context. -/
theorem decides_checkBody (ctx : Context) (is : List Instruction) : Decides (checkBody ctx is) := by
  have split : checkBody ctx is =
      (Check.sequence ctx is >>= fun _ => Check.leave) ((Frame.root ctx).state [] false) >>=
        fun (u, _) => pure u := rfl
  rw [split, Decides.bind_iff]
  refine ⟨?_, fun _ _ => .pure _⟩
  obtain ⟨decides, stays⟩ := Check.steady_sequence is (Frame.root ctx) [] false
  refine Check.decides_bind decides ?_
  intro a s ran
  obtain ⟨operands', unreachable', rfl⟩ := stays a s ran
  exact Check.decides_leave _ operands' unreachable'

end WasmMachine.Typing
