/-
# What is typed the checker accepts

The checker knows at least as little of the operands as any typing does: each operand
is of the type that it has in the typing or of unknown type, and where the construct
cannot be reached the typing may have more of them below.  A typed instruction keeps
it that way.
-/

import WasmMachine.Proofs.Typing.Soundness

namespace WasmMachine.Typing

/-- An operand of the checker for one of a typing. -/
def Weaker (known type : ValType) : Prop := known = .unknown ∨ known = type

theorem Weaker.fits {known type want : ValType} (weaker : Weaker known type)
    (fits : Fits type want) : Fits known want := by
  rcases weaker with dead | same
  · exact .inl dead
  · exact same ▸ fits

theorem Weaker.trans {known middle type : ValType} (weaker : Weaker known middle)
    (weaker' : Weaker middle type) : Weaker known type := by
  rcases weaker with dead | rfl
  · exact .inl dead
  · exact weaker'

theorem Weaker.number {known type : ValType} (weaker : Weaker known type)
    (number : type.isRef = false) : known.isRef = false := by
  rcases weaker with rfl | rfl
  · rfl
  · exact number

theorem accepts_of_weaker {types gots gots' : List ValType}
    (weaker : List.Forall₂ Weaker gots' gots) (fits : Accepts types gots) :
    Accepts types gots' := by
  unfold Accepts at *
  generalize types.reverse = wants at *
  induction weaker generalizing wants with
  | nil => exact fits
  | cons here _ ih =>
      cases fits with
      | cons fits others => exact .cons (here.fits fits) (ih _ others)

/-- The checker's operands for a stack of a typing. -/
def Covers (unreachable : Bool) (operands stack : List ValType) : Prop :=
  ∃ top pad, stack = top ++ pad ∧ List.Forall₂ Weaker operands top ∧ Pads unreachable pad

namespace Covers

variable {unreachable : Bool} {operands stack rest below : List ValType}

theorem refl (types : List ValType) : Covers unreachable types types :=
  ⟨types, [], (List.append_nil types).symm, List.forall₂_same.mpr fun _ _ => .inr rfl, Pads.nil⟩

theorem dead : Covers true [] stack :=
  ⟨[], stack, rfl, .nil, fun alive => absurd alive.symm Bool.false_ne_true⟩

theorem cons {known type : ValType} (weaker : Weaker known type)
    (covers : Covers unreachable rest below) :
    Covers unreachable (known :: rest) (type :: below) := by
  obtain ⟨top, pad, rfl, others, pads⟩ := covers
  exact ⟨type :: top, pad, rfl, .cons weaker others, pads⟩

theorem eq_nil (covers : Covers unreachable operands []) : operands = [] := by
  obtain ⟨top, pad, same, weaker, -⟩ := covers
  obtain ⟨rfl, -⟩ := List.append_eq_nil_iff.mp same.symm
  exact List.forall₂_nil_right_iff.mp weaker

theorem push (results : List ValType) (covers : Covers unreachable rest below) :
    Covers unreachable (results ++ rest) (results ++ below) := by
  induction results with
  | nil => exact covers
  | cons type results ih => exact ih.cons (.inr rfl)

/-- What the typing takes the checker can take as well. -/
theorem pops {gots : List ValType} (covers : Covers unreachable operands (gots ++ below)) :
    ∃ gots' rest, Pops unreachable operands gots' rest ∧ List.Forall₂ Weaker gots' gots ∧
      Covers unreachable rest below := by
  induction gots generalizing operands with
  | nil => exact ⟨[], operands, .nil, .nil, covers⟩
  | cons type gots ih =>
      obtain ⟨top, pad, same, weaker, pads⟩ := covers
      cases weaker with
      | nil =>
          have dead : unreachable = true := by
            cases unreachable
            · rw [pads rfl] at same
              cases same
            · rfl
          subst dead
          obtain ⟨gots', rest, pops, weaker, covers⟩ := ih Covers.dead
          exact ⟨_, rest, .conjure rfl pops, .cons (.inl rfl) weaker, covers⟩
      | cons here weaker =>
          injection same with head tail
          subst head
          obtain ⟨gots', rest, pops, others, covers⟩ := ih ⟨_, pad, tail, weaker, pads⟩
          exact ⟨_, rest, .cons pops, .cons here others, covers⟩

end Covers

namespace Check

variable {ctx : Context} {f : Frame} {operands before after : List ValType} {unreachable : Bool}

/-- The step succeeds, and what it leaves covers the stack of the typing. -/
def Proceeds (step : Check Unit) (f : Frame) (operands : List ValType) (unreachable : Bool)
    (after : List ValType) : Prop :=
  ∃ operands' unreachable', step (f.state operands unreachable) =
    .ok ((), f.state operands' unreachable') ∧ Covers unreachable' operands' after

/-! ### Operands -/

private theorem proceeds_signature {i : Instruction} {type : FuncType} {gots below : List ValType}
    (typed : PlainTyped ctx i type) (fits : Accepts type.params gots)
    (covers : Covers unreachable operands (gots ++ below)) :
    Proceeds (plain ctx i) f operands unreachable (type.results.reverse ++ below) := by
  obtain ⟨gots, rest, pops, weaker, covers⟩ := covers.pops
  refine ⟨_, unreachable, ?_, covers.push type.results.reverse⟩
  rw [plain_of_plainTyped typed]
  refine bind_eq_ok_iff.mpr
    ⟨type, _, lift_eq_ok_iff.mpr ⟨Context.signature_eq_ok_iff.mpr typed, rfl⟩, ?_⟩
  exact applySignature_eq_ok_iff.mpr ⟨gots, rest, pops, accepts_of_weaker weaker fits, rfl⟩

private theorem proceeds_drop {i : Instruction} {type : ValType} (is : i.opcode = Opcode.drop)
    (covers : Covers unreachable operands ([type] ++ after)) :
    Proceeds (plain ctx i) f operands unreachable after := by
  obtain ⟨gots, rest, pops, weaker, covers⟩ := covers.pops
  cases weaker with
  | cons here none =>
      cases none
      refine ⟨rest, unreachable, ?_, covers⟩
      unfold plain
      rw [is]
      exact discard_eq_ok_iff.mpr ⟨_, pop_eq_ok_iff.mpr ⟨rest, pops, rfl⟩⟩

/-- What the checker knows of the two operands of a select goes together, and what it takes
for the result is not more than it has in the typing. -/
private theorem select_weaker {upper lower type : ValType} (top : Weaker upper type)
    (bottom : Weaker lower type) :
    (upper = .unknown ∨ lower = .unknown ∨ upper = lower) ∧
      Weaker (if upper = .unknown then lower else upper) type := by
  constructor
  · rcases top with dead | same
    · exact .inl dead
    · rcases bottom with dead | same'
      · exact .inr (.inl dead)
      · exact .inr (.inr (same.trans same'.symm))
  · split
    · exact bottom
    · exact top

private theorem proceeds_select {i : Instruction} {type condition upper lower : ValType}
    {below : List ValType} (is : i.opcode = Opcode.select) (number : type.isRef = false)
    (fits : Fits condition .i32) (atop : Weaker upper type) (under : Weaker lower type)
    (covers : Covers unreachable operands ([condition, upper, lower] ++ below)) :
    Proceeds (plain ctx i) f operands unreachable (type :: below) := by
  obtain ⟨gots, rest, pops, weaker, covers⟩ := covers.pops
  obtain ⟨condition', gots, here, others, rfl⟩ := List.forall₂_cons_right_iff.mp weaker
  obtain ⟨upper', gots, here', others', rfl⟩ := List.forall₂_cons_right_iff.mp others
  obtain ⟨lower', gots, here'', others'', rfl⟩ := List.forall₂_cons_right_iff.mp others'
  cases others''
  have top : Weaker upper' type := here'.trans atop
  have bottom : Weaker lower' type := here''.trans under
  obtain ⟨same, left⟩ := select_weaker top bottom
  refine ⟨_, unreachable, ?_, covers.cons left⟩
  unfold plain
  rw [is]
  exact select_eq_ok_iff.mpr ⟨condition', upper', lower', rest, pops, here.fits fits,
    top.number number, bottom.number number, same, rfl⟩

private theorem proceeds_refIsNull {i : Instruction} {type : ValType} {below : List ValType}
    (is : i.opcode = Opcode.refIsNull) (accepted : type = .unknown ∨ type.isRef)
    (covers : Covers unreachable operands ([type] ++ below)) :
    Proceeds (plain ctx i) f operands unreachable (.i32 :: below) := by
  obtain ⟨gots, rest, pops, weaker, covers⟩ := covers.pops
  cases weaker with
  | @cons known _ _ _ here none =>
      cases none
      refine ⟨.i32 :: rest, unreachable, ?_, covers.push [.i32]⟩
      have fine : ¬ (known ≠ .unknown ∧ (!known.isRef) = true) := by
        rintro ⟨alive, other⟩
        obtain rfl := here.resolve_left alive
        rw [accepted.resolve_left alive] at other
        cases other
      unfold plain
      rw [is]
      refine bind_eq_ok_iff.mpr ⟨known, _, pop_eq_ok_iff.mpr ⟨rest, pops, rfl⟩, ?_⟩
      rw [if_neg fine]
      exact push_state

/-! ### Branches -/

private theorem proceeds_unreachable {i : Instruction} (is : i.opcode = Opcode.unreachable) :
    Proceeds (plain ctx i) f operands unreachable after := by
  refine ⟨[], true, ?_, Covers.dead⟩
  unfold plain
  rw [is]
  exact setUnreachable_state

private theorem proceeds_br {i : Instruction} {types gots below : List ValType}
    (is : i.opcode = Opcode.br) (found : f.labels[i.branchLabel.toNat]? = some types)
    (fits : Accepts types gots) (covers : Covers unreachable operands (gots ++ below)) :
    Proceeds (plain ctx i) f operands unreachable after := by
  obtain ⟨gots, rest, pops, weaker, -⟩ := covers.pops
  obtain ⟨c, ran, rfl⟩ := label_of_labels operands unreachable found
  refine ⟨[], true, ?_, Covers.dead⟩
  unfold plain
  rw [is]
  refine bind_eq_ok_iff.mpr ⟨c, _, ran, ?_⟩
  exact bind_eq_ok_iff.mpr ⟨(), _, popAll_eq_ok_iff.mpr
    ⟨gots, rest, pops, accepts_of_weaker weaker fits, rfl⟩, setUnreachable_state⟩

private theorem proceeds_brIf {i : Instruction} {condition : ValType}
    {types gots below : List ValType} (is : i.opcode = Opcode.brIf)
    (found : f.labels[i.branchLabel.toNat]? = some types) (fits : Fits condition .i32)
    (fits' : Accepts types gots)
    (covers : Covers unreachable operands ((condition :: gots) ++ below)) :
    Proceeds (plain ctx i) f operands unreachable (types.reverse ++ below) := by
  obtain ⟨gots', rest, pops, weaker, covers⟩ := covers.pops
  obtain ⟨c, ran, rfl⟩ := label_of_labels operands unreachable found
  cases weaker with
  | cons here weaker =>
      obtain ⟨operands', pops, pops'⟩ := Pops.cons_iff.mp pops
      refine ⟨_, unreachable, ?_, covers.push c.labelTypes.reverse⟩
      unfold plain
      rw [is]
      refine bind_eq_ok_iff.mpr ⟨c, _, ran, ?_⟩
      refine bind_eq_ok_iff.mpr
        ⟨(), _, popExpect_eq_ok_iff.mpr ⟨_, _, pops, here.fits fits, rfl⟩, ?_⟩
      exact applySignature_eq_ok_iff.mpr ⟨_, rest, pops', accepts_of_weaker weaker fits', rfl⟩

private theorem proceeds_brTable {i : Instruction} {condition : ValType}
    {types gots below : List ValType} (is : i.opcode = Opcode.brTable)
    (found : f.labels[i.branchTable.2.toNat]? = some types) (fits : Fits condition .i32)
    (fits' : Accepts types gots)
    (others : ∀ label ∈ i.branchTable.1, ∃ others, f.labels[label.toNat]? = some others ∧
      others.length = types.length ∧ Accepts others gots)
    (covers : Covers unreachable operands ((condition :: gots) ++ below)) :
    Proceeds (plain ctx i) f operands unreachable after := by
  obtain ⟨gots', rest, pops, weaker, -⟩ := covers.pops
  cases weaker with
  | cons here weaker =>
      refine ⟨[], true, ?_, Covers.dead⟩
      unfold plain
      rw [is]
      refine branchTable_eq_ok_iff.mpr ⟨_, types, _, rest, pops, here.fits fits, found,
        accepts_of_weaker weaker fits', ?_, rfl⟩
      intro depth mem
      obtain ⟨types, known, length, fits⟩ := others depth mem
      exact ⟨types, known, length, accepts_of_weaker weaker fits⟩

private theorem proceeds_ret {i : Instruction} {gots below : List ValType}
    (is : i.opcode = Opcode.ret) (fits : Accepts ctx.results gots)
    (covers : Covers unreachable operands (gots ++ below)) :
    Proceeds (plain ctx i) f operands unreachable after := by
  obtain ⟨gots, rest, pops, weaker, -⟩ := covers.pops
  refine ⟨[], true, ?_, Covers.dead⟩
  unfold plain
  rw [is]
  exact bind_eq_ok_iff.mpr ⟨(), _, popAll_eq_ok_iff.mpr
    ⟨gots, rest, pops, accepts_of_weaker weaker fits, rfl⟩, setUnreachable_state⟩

/-! ### All instructions -/

private theorem proceeds_plain {i : Instruction} (block : i.opcode ≠ Opcode.block)
    (loop : i.opcode ≠ Opcode.loop) (choice : i.opcode ≠ Opcode.ifElse)
    (typed : Typed ctx f.labels i before after) (covers : Covers unreachable operands before) :
    Proceeds (plain ctx i) f operands unreachable after := by
  cases typed with
  | plain typed fits => exact proceeds_signature typed fits covers
  | drop is => exact proceeds_drop is covers
  | select is number fits atop under => exact proceeds_select is number fits atop under covers
  | refIsNull is accepted => exact proceeds_refIsNull is accepted covers
  | unreachable is => exact proceeds_unreachable is
  | br is found fits => exact proceeds_br is found fits covers
  | brIf is found fits fits' => exact proceeds_brIf is found fits fits' covers
  | brTable is found fits fits' others => exact proceeds_brTable is found fits fits' others covers
  | ret is fits => exact proceeds_ret is fits covers
  | block is => exact absurd is block
  | loop is => exact absurd is loop
  | ifElse is => exact absurd is choice

/-! ### Constructs -/

/-- A typed sequence is accepted from every state that covers its first stack. -/
private def Complete (ctx : Context) (is : List Instruction) : Prop :=
  ∀ {f : Frame} {operands before after : List ValType} {unreachable : Bool},
    SequenceTyped ctx f.labels is before after → Covers unreachable operands before →
      Proceeds (sequence ctx is) f operands unreachable after

/-- A typed body is accepted up to the end of its construct. -/
private theorem inside_of_bodyTyped (type : FuncType) {body : List Instruction}
    (complete : Complete ctx body) (gives : f.construct.results = type.results)
    (typed : BodyTyped ctx f.labels type body) :
    (sequence ctx body >>= fun _ => leave) (f.state type.params.reverse false) =
      .ok ((), ⟨f.below, f.outer⟩) := by
  cases typed with
  | @intro _ _ _ operands typed fits =>
      obtain ⟨operands', unreachable', ran, covers⟩ := complete typed (.refl _)
      rw [← List.append_nil operands] at covers
      obtain ⟨gots, rest, pops, weaker, covers⟩ := covers.pops
      obtain rfl := covers.eq_nil
      rw [bind_of_ok ran]
      refine leave_eq_ok_iff.mpr ⟨⟨gots, pops, ?_⟩, rfl⟩
      rw [gives]
      exact accepts_of_weaker weaker fits

private theorem arm_of_bodyTyped (loop : Bool) {type : FuncType} {body : List Instruction}
    (complete : Complete ctx body)
    (typed : BodyTyped ctx ((if loop then type.params else type.results) :: f.labels) type body) :
    arm ctx loop type body (f.state operands unreachable) =
      .ok ((), f.state operands unreachable) := by
  rw [arm, bind_of_ok enter_state]
  exact inside_of_bodyTyped type complete rfl typed

variable {op : UInt8} {immediate : Option Immediate} {inner orElse : List Instruction}

private theorem proceeds_construct (loop : Bool) {type : FuncType} {gots below : List ValType}
    (is : op = if loop then Opcode.loop else Opcode.block) (complete : Complete ctx inner)
    (known : BlockType.signature? ctx.types
      ((Instruction.node op immediate inner orElse).blockType?.getD 0) = some type)
    (fits : Accepts type.params gots)
    (body : BodyTyped ctx ((if loop then type.params else type.results) :: f.labels) type inner)
    (covers : Covers unreachable operands (gots ++ below)) :
    Proceeds (instruction ctx (.node op immediate inner orElse)) f operands unreachable
      (type.results.reverse ++ below) := by
  obtain ⟨gots', rest, pops, weaker, covers⟩ := covers.pops
  refine ⟨_, unreachable, ?_, covers.push type.results.reverse⟩
  rw [instruction_block loop is, bind_of_ok (blockSignature_eq_ok_iff.mpr ⟨known, rfl⟩),
    bind_of_ok (popAll_eq_ok_iff.mpr ⟨gots', rest, pops, accepts_of_weaker weaker fits, rfl⟩),
    bind_of_ok (arm_of_bodyTyped loop complete body), push_state]

private theorem proceeds_choice {type : FuncType} {condition : ValType}
    {gots below : List ValType} (complete : Complete ctx inner) (complete' : Complete ctx orElse)
    (known : BlockType.signature? ctx.types
      ((Instruction.node Opcode.ifElse immediate inner orElse).blockType?.getD 0) = some type)
    (fits : Fits condition .i32) (fits' : Accepts type.params gots)
    (body : BodyTyped ctx (type.results :: f.labels) type inner)
    (other : BodyTyped ctx (type.results :: f.labels) type orElse)
    (covers : Covers unreachable operands ((condition :: gots) ++ below)) :
    Proceeds (instruction ctx (.node Opcode.ifElse immediate inner orElse)) f operands unreachable
      (type.results.reverse ++ below) := by
  obtain ⟨gots', rest, pops, weaker, covers⟩ := covers.pops
  obtain ⟨condition', gots', here, others, rfl⟩ := List.forall₂_cons_right_iff.mp weaker
  obtain ⟨operands', pops, pops'⟩ := Pops.cons_iff.mp pops
  have again : Accepts type.params type.params.reverse :=
    List.forall₂_same.mpr fun _ _ => .inr (.inr rfl)
  refine ⟨_, unreachable, ?_, covers.push type.results.reverse⟩
  rw [instruction_ifElse, bind_of_ok (blockSignature_eq_ok_iff.mpr ⟨known, rfl⟩),
    bind_of_ok (popExpect_eq_ok_iff.mpr ⟨_, _, pops, here.fits fits, rfl⟩),
    bind_of_ok (popAll_eq_ok_iff.mpr ⟨gots', rest, pops', accepts_of_weaker others fits', rfl⟩),
    bind_of_ok (arm_of_bodyTyped false complete body), bind_of_ok push_state,
    bind_of_ok (popAll_eq_ok_iff.mpr ⟨_, rest, Pops.append _ _, again, rfl⟩),
    bind_of_ok (arm_of_bodyTyped false complete' other), push_state]

mutual

private theorem proceeds_instruction : ∀ (i : Instruction) {f : Frame}
    {operands before after : List ValType} {unreachable : Bool},
    Typed ctx f.labels i before after → Covers unreachable operands before →
      Proceeds (instruction ctx i) f operands unreachable after
  | .node op immediate inner orElse, f, operands, before, after, unreachable, typed, covers => by
      have plainly {code : UInt8} (is : op = code)
          (ordinary : code ∉ [Opcode.block, Opcode.loop, Opcode.ifElse]) :
          Proceeds (instruction ctx (.node op immediate inner orElse)) f operands unreachable
            after := by
        subst is
        simp only [List.mem_cons, List.not_mem_nil, or_false, not_or] at ordinary
        obtain ⟨block, loop, choice⟩ := ordinary
        rw [instruction_plain block loop choice]
        exact proceeds_plain block loop choice typed covers
      cases typed with
      | block is known fits body =>
          exact proceeds_construct false is (proceeds_sequence inner) known fits body covers
      | loop is known fits body =>
          exact proceeds_construct true is (proceeds_sequence inner) known fits body covers
      | ifElse is known fits fits' body other =>
          obtain rfl : op = Opcode.ifElse := is
          exact proceeds_choice (proceeds_sequence inner) (proceeds_sequence orElse) known fits
            fits' body other covers
      | plain known _ =>
          refine plainly rfl fun mem => Context.not_special_of_plainTyped known ?_
          exact List.mem_cons_of_mem _ (List.mem_append_left _ mem)
      | drop is => exact plainly is (by decide)
      | select is => exact plainly is (by decide)
      | refIsNull is => exact plainly is (by decide)
      | unreachable is => exact plainly is (by decide)
      | br is => exact plainly is (by decide)
      | brIf is => exact plainly is (by decide)
      | brTable is => exact plainly is (by decide)
      | ret is => exact plainly is (by decide)

private theorem proceeds_sequence : ∀ (is : List Instruction), Complete ctx is
  | [], f, operands, before, after, unreachable, typed, covers => by
      cases typed
      exact ⟨operands, unreachable, rfl, covers⟩
  | i :: rest, f, operands, before, after, unreachable, typed, covers => by
      cases typed with
      | cons first others =>
          obtain ⟨operands', unreachable', ran, covers⟩ := proceeds_instruction i first covers
          obtain ⟨operands'', unreachable'', ran', covers⟩ := proceeds_sequence rest others covers
          refine ⟨operands'', unreachable'', ?_, covers⟩
          rw [sequence, bind_of_ok ran, ran']

end

end Check

/-- The checker accepts a body exactly when there is a typing for it. -/
theorem checkBody_eq_ok_iff_functionTyped {ctx : Context} {body : List Instruction} :
    checkBody ctx body = .ok () ↔ FunctionTyped ctx body := by
  constructor
  · exact functionTyped_of_checkBody
  · intro typed
    exact Check.checkBody_eq_ok_iff.mpr
      ⟨_, Check.inside_of_bodyTyped ⟨[], ctx.results⟩ (Check.proceeds_sequence body) rfl typed⟩

/-- Behind an instruction that does not fall through there are operands of every type. -/
example : checkBody { results := [.i32] }
    [.plain Opcode.unreachable none, .plain Opcode.drop none,
      .plain Opcode.i32Const (some (.i32 0))] = .ok () := rfl

end WasmMachine.Typing
