/-
# What the checker accepts is typed

A run of the checker stands for a typing.  Where the checker conjures an operand up
the typing has one of unknown type, which the last instruction that did not fall
through has left behind; how many there must be is only known at the end of the
construct.  So what a run stands for is said backwards: whatever is wanted below the
operands that it leaves, there is something to put below those it started from.
-/

import WasmMachine.Proofs.Typing.Steps

namespace WasmMachine.Typing

/-- Operands may stand below the ones that the checker knows of where the construct
cannot be reached. -/
def Pads (unreachable : Bool) (pad : List ValType) : Prop := unreachable = false → pad = []

theorem Pads.nil {unreachable : Bool} : Pads unreachable [] := fun _ => rfl

/-- What is taken is on top of the operands once enough of them are put below. -/
theorem Pops.pad {unreachable : Bool} {operands gots rest below : List ValType}
    (pops : Pops unreachable operands gots rest) (pads : Pads unreachable below) :
    ∃ pad, Pads unreachable pad ∧ operands ++ pad = gots ++ (rest ++ below) := by
  induction pops with
  | nil => exact ⟨below, pads, rfl⟩
  | @cons type _ _ _ _ ih =>
      obtain ⟨pad, padded, same⟩ := ih
      exact ⟨pad, padded, congrArg (type :: ·) same⟩
  | conjure dead _ ih =>
      obtain ⟨pad, -, same⟩ := ih
      rw [List.nil_append] at same
      refine ⟨.unknown :: pad, fun alive => absurd (alive.symm.trans dead) Bool.false_ne_true, ?_⟩
      rw [same]
      rfl

/-- A state of the checker behind a step that has a typing for every stack. -/
def Stands (typed : List ValType → List ValType → Prop) (f : Frame) (operands : List ValType)
    (unreachable : Bool) (s' : Checker) : Prop :=
  ∃ operands' unreachable', s' = f.state operands' unreachable' ∧
    ∀ below, Pads unreachable' below →
      ∃ pad, Pads unreachable pad ∧ typed (operands ++ pad) (operands' ++ below)

namespace Stands

variable {typed : List ValType → List ValType → Prop} {f : Frame}
  {operands gots rest : List ValType} {unreachable : Bool}

/-- Operands are exchanged for results. -/
theorem of_pops (results : List ValType) (pops : Pops unreachable operands gots rest)
    (holds : ∀ below, typed (gots ++ below) (results ++ below)) :
    Stands typed f operands unreachable (f.state (results ++ rest) unreachable) := by
  refine ⟨_, _, rfl, ?_⟩
  intro below pads
  obtain ⟨pad, padded, same⟩ := pops.pad pads
  refine ⟨pad, padded, ?_⟩
  rw [same, List.append_assoc]
  exact holds (rest ++ below)

/-- Operands are taken and nothing falls through. -/
theorem of_dead (pops : Pops unreachable operands gots rest)
    (holds : ∀ below after, typed (gots ++ below) after) :
    Stands typed f operands unreachable (f.state [] true) := by
  refine ⟨_, _, rfl, ?_⟩
  intro below _
  obtain ⟨pad, padded, same⟩ := pops.pad Pads.nil
  refine ⟨pad, padded, ?_⟩
  rw [same]
  exact holds _ _

end Stands

namespace Check

variable {ctx : Context} {f : Frame} {operands : List ValType} {unreachable : Bool} {s' : Checker}

private theorem stands_plain {i : Instruction}
    (ok : plain ctx i (f.state operands unreachable) = .ok ((), s')) :
    Stands (Typed ctx f.labels i) f operands unreachable s' := by
  generalize split : plain ctx i = step at ok
  unfold plain at split
  dsimp only at split
  split at split
  all_goals subst split
  · next is =>
      rw [setUnreachable_state] at ok
      cases ok
      exact .of_dead .nil fun _ _ => .unreachable is
  · next is =>
      obtain ⟨c, middle, ran, ok⟩ := bind_eq_ok_iff.mp ok
      obtain ⟨found, rfl⟩ := labels_of_label ran
      obtain ⟨_, middle, ran, ok⟩ := bind_eq_ok_iff.mp ok
      obtain ⟨gots, rest, pops, fits, rfl⟩ := popAll_eq_ok_iff.mp ran
      rw [setUnreachable_state] at ok
      cases ok
      exact .of_dead pops fun _ _ => .br is found fits
  · next is =>
      obtain ⟨c, middle, ran, ok⟩ := bind_eq_ok_iff.mp ok
      obtain ⟨found, rfl⟩ := labels_of_label ran
      obtain ⟨_, middle, ran, ok⟩ := bind_eq_ok_iff.mp ok
      obtain ⟨condition, operands', pops, fits, rfl⟩ := popExpect_eq_ok_iff.mp ran
      obtain ⟨gots, rest, pops', fits', rfl⟩ := applySignature_eq_ok_iff.mp ok
      exact .of_pops _ (Pops.cons_iff.mpr ⟨_, pops, pops'⟩) fun _ => .brIf is found fits fits'
  · next is =>
      obtain ⟨condition, types, gots, rest, pops, fits, found, fits', others, rfl⟩ :=
        branchTable_eq_ok_iff.mp ok
      exact .of_dead pops fun _ _ => .brTable is found fits fits' others
  · next is =>
      obtain ⟨_, middle, ran, ok⟩ := bind_eq_ok_iff.mp ok
      obtain ⟨gots, rest, pops, fits, rfl⟩ := popAll_eq_ok_iff.mp ran
      rw [setUnreachable_state] at ok
      cases ok
      exact .of_dead pops fun _ _ => .ret is fits
  · next is =>
      obtain ⟨got, ran⟩ := discard_eq_ok_iff.mp ok
      obtain ⟨rest, pops, rfl⟩ := pop_eq_ok_iff.mp ran
      exact .of_pops [] pops fun _ => .drop is
  · next is =>
      obtain ⟨condition, upper, lower, rest, pops, fits, number, number', same, rfl⟩ :=
        select_eq_ok_iff.mp ok
      refine .of_pops [_] pops fun _ => .select is ?_ fits ?_ ?_
      · split
        · exact number'
        · exact number
      · by_cases dead : upper = .unknown
        · exact .inl dead
        · rw [if_neg dead]
          exact .inr rfl
      · by_cases dead : upper = .unknown
        · rw [if_pos dead]
          exact .inr rfl
        · rw [if_neg dead]
          exact (same.resolve_left dead).imp_right Eq.symm
  · next is =>
      obtain ⟨got, middle, ran, ok⟩ := bind_eq_ok_iff.mp ok
      obtain ⟨rest, pops, rfl⟩ := pop_eq_ok_iff.mp ran
      split at ok
      · cases ok
      · next accepted =>
          rw [push_state] at ok
          cases ok
          refine .of_pops [.i32] pops fun _ => .refIsNull is ?_
          rw [not_and_or, Decidable.not_not, Bool.not_eq_true', Bool.not_eq_false] at accepted
          exact accepted
  · obtain ⟨type, middle, ran, ok⟩ := bind_eq_ok_iff.mp ok
    obtain ⟨known, rfl⟩ := lift_eq_ok_iff.mp ran
    obtain ⟨gots, rest, pops, fits, rfl⟩ := applySignature_eq_ok_iff.mp ok
    exact .of_pops _ pops fun _ => .plain (Context.signature_eq_ok_iff.mp known) fits

/-- Every run over a sequence stands for a typing. -/
private def Sound (ctx : Context) (is : List Instruction) : Prop :=
  ∀ {f : Frame} {operands : List ValType} {unreachable : Bool} {s' : Checker},
    sequence ctx is (f.state operands unreachable) = .ok ((), s') →
      Stands (SequenceTyped ctx f.labels is) f operands unreachable s'

/-- What is accepted between the start and the end of a construct is typed, and what is
around it stays as it is. -/
private theorem bodyTyped_of_inside (type : FuncType) {body : List Instruction}
    (sound : Sound ctx body) (gives : f.construct.results = type.results)
    (ok : (sequence ctx body >>= fun _ => leave) (f.state type.params.reverse false) =
      .ok ((), s')) :
    BodyTyped ctx f.labels type body ∧ s' = ⟨f.below, f.outer⟩ := by
  obtain ⟨_, middle, ran, ok⟩ := bind_eq_ok_iff.mp ok
  obtain ⟨operands', unreachable', rfl, typed⟩ := sound ran
  obtain ⟨⟨gots, pops, fits⟩, rfl⟩ := leave_eq_ok_iff.mp ok
  obtain ⟨below, pads, same⟩ := pops.pad Pads.nil
  obtain ⟨pad, none, typed⟩ := typed below pads
  obtain rfl := none rfl
  rw [same, List.append_nil, List.append_nil, List.append_nil] at typed
  rw [gives] at fits
  exact ⟨.intro typed fits, rfl⟩

private theorem bodyTyped_of_arm {loop : Bool} {type : FuncType} {body : List Instruction}
    (sound : Sound ctx body)
    (ok : arm ctx loop type body (f.state operands unreachable) = .ok ((), s')) :
    BodyTyped ctx ((if loop then type.params else type.results) :: f.labels) type body ∧
      s' = f.state operands unreachable := by
  rw [arm, bind_of_ok enter_state] at ok
  exact bodyTyped_of_inside type sound rfl ok

variable {op : UInt8} {immediate : Option Immediate} {inner orElse : List Instruction}

private theorem stands_construct (loop : Bool)
    (is : op = if loop then Opcode.loop else Opcode.block) (sound : Sound ctx inner)
    (ok : instruction ctx (.node op immediate inner orElse) (f.state operands unreachable) =
      .ok ((), s')) :
    Stands (Typed ctx f.labels (.node op immediate inner orElse)) f operands unreachable s' := by
  rw [instruction_block loop is] at ok
  obtain ⟨type, middle, ran, ok⟩ := bind_eq_ok_iff.mp ok
  obtain ⟨known, rfl⟩ := blockSignature_eq_ok_iff.mp ran
  obtain ⟨_, middle, ran, ok⟩ := bind_eq_ok_iff.mp ok
  obtain ⟨gots, rest, pops, fits, rfl⟩ := popAll_eq_ok_iff.mp ran
  obtain ⟨_, middle, ran, ok⟩ := bind_eq_ok_iff.mp ok
  obtain ⟨body, rfl⟩ := bodyTyped_of_arm sound ran
  rw [push_state] at ok
  cases ok
  apply Stands.of_pops _ pops
  intro below
  cases loop
  · exact .block is known fits body
  · exact .loop is known fits body

private theorem stands_choice (sound : Sound ctx inner) (sound' : Sound ctx orElse)
    (ok : instruction ctx (.node Opcode.ifElse immediate inner orElse)
      (f.state operands unreachable) = .ok ((), s')) :
    Stands (Typed ctx f.labels (.node Opcode.ifElse immediate inner orElse)) f operands
      unreachable s' := by
  rw [instruction_ifElse] at ok
  obtain ⟨type, middle, ran, ok⟩ := bind_eq_ok_iff.mp ok
  obtain ⟨known, rfl⟩ := blockSignature_eq_ok_iff.mp ran
  obtain ⟨_, middle, ran, ok⟩ := bind_eq_ok_iff.mp ok
  obtain ⟨condition, operands', pops, fits, rfl⟩ := popExpect_eq_ok_iff.mp ran
  obtain ⟨_, middle, ran, ok⟩ := bind_eq_ok_iff.mp ok
  obtain ⟨gots, rest, pops', fits', rfl⟩ := popAll_eq_ok_iff.mp ran
  obtain ⟨_, middle, ran, ok⟩ := bind_eq_ok_iff.mp ok
  obtain ⟨body, rfl⟩ := bodyTyped_of_arm sound ran
  rw [bind_of_ok push_state] at ok
  obtain ⟨_, middle, ran, ok⟩ := bind_eq_ok_iff.mp ok
  obtain ⟨gots', rest', pops'', fits'', rfl⟩ := popAll_eq_ok_iff.mp ran
  -- the parameters that were put back are the operands of the other arm
  have length : gots'.length = type.params.reverse.length := fits''.length_eq
  rw [(pops''.unique (Pops.append type.params.reverse rest) length).2] at ok
  obtain ⟨_, middle, ran, ok⟩ := bind_eq_ok_iff.mp ok
  obtain ⟨other, rfl⟩ := bodyTyped_of_arm sound' ran
  rw [push_state] at ok
  cases ok
  apply Stands.of_pops _ (Pops.cons_iff.mpr ⟨_, pops, pops'⟩)
  intro below
  exact .ifElse rfl known fits fits' body other

mutual

private theorem stands_instruction : ∀ (i : Instruction) {f : Frame} {operands : List ValType}
    {unreachable : Bool} {s' : Checker},
    instruction ctx i (f.state operands unreachable) = .ok ((), s') →
      Stands (Typed ctx f.labels i) f operands unreachable s'
  | .node op immediate inner orElse, f, operands, unreachable, s', ok => by
      by_cases block : op = Opcode.block
      · exact stands_construct false block (stands_sequence inner) ok
      by_cases loop : op = Opcode.loop
      · exact stands_construct true loop (stands_sequence inner) ok
      by_cases choice : op = Opcode.ifElse
      · subst choice
        exact stands_choice (stands_sequence inner) (stands_sequence orElse) ok
      rw [instruction_plain block loop choice] at ok
      exact stands_plain ok

private theorem stands_sequence : ∀ (is : List Instruction), Sound ctx is
  | [], f, operands, unreachable, s', ok => by
      rw [sequence] at ok
      cases ok
      exact ⟨_, _, rfl, fun below pads => ⟨below, pads, .nil⟩⟩
  | i :: rest, f, operands, unreachable, s', ok => by
      rw [sequence] at ok
      obtain ⟨_, middle, ran, ok⟩ := bind_eq_ok_iff.mp ok
      obtain ⟨operands', unreachable', rfl, first⟩ := stands_instruction i ran
      obtain ⟨operands'', unreachable'', rfl, others⟩ := stands_sequence rest ok
      refine ⟨_, _, rfl, ?_⟩
      intro below pads
      obtain ⟨pad, pads, others⟩ := others below pads
      obtain ⟨pad, pads, first⟩ := first pad pads
      exact ⟨pad, pads, .cons first others⟩

end

end Check

/-- A body that the checker accepts is typed. -/
theorem functionTyped_of_checkBody {ctx : Context} {body : List Instruction}
    (ok : checkBody ctx body = .ok ()) : FunctionTyped ctx body := by
  obtain ⟨s', ran⟩ := Check.checkBody_eq_ok_iff.mp ok
  exact (Check.bodyTyped_of_inside ⟨[], ctx.results⟩ (Check.stands_sequence body) rfl ran).1

end WasmMachine.Typing
