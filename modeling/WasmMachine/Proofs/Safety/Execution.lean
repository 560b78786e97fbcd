/-
# Execution is safe

Checked code runs safely on a lawful store with any amount of fuel.  Each function of
the machine is safe with some fuel when those it calls are safe with less, so all of
them are safe by induction on the fuel.  That includes the host functions, which may call
back into checked code and so take part in the induction.
-/

import WasmMachine.Proofs.Reference.Invocation
import WasmMachine.Proofs.Safety.Machine
import WasmMachine.Proofs.Typing.Signature

namespace WasmMachine

open Typing

/-- What surrounds an instruction: the labels in scope, each with types that mean
something, and a level for each of them. -/
structure Surrounded (ctx : Context) (labels : List (List ValType)) (levels : List Level) :
    Prop where
  known : ctx.Known
  valid : ∀ types ∈ labels, ∀ t ∈ types, t.isValid
  within : Scoped ctx.results labels levels

theorem Surrounded.label {ctx : Context} {labels : List (List ValType)} {levels : List Level}
    {types : List ValType} {label : Label} {under : List Value}
    (surrounded : Surrounded ctx labels levels) (valid : ∀ t ∈ types, t.isValid)
    (arity : label.arity = types.length) :
    Surrounded ctx (types :: labels) (⟨.label label, under⟩ :: levels) where
  known := surrounded.known
  valid := by
    intro others mem
    rcases List.mem_cons.mp mem with rfl | mem
    · exact valid
    · exact surrounded.valid others mem
  within := .label arity surrounded.within

namespace Machine.Typed

variable {σ : Shape} {ctx : Context} {types operands below : List ValType} {levels : List Level}
  {m : Machine} {condition : ValType}

/-- Operands that are there are accepted for their own types only. -/
theorem accepted (typed : m.Typed σ ctx (operands ++ below) levels)
    (accepts : Accepts types operands) (valid : ∀ t ∈ types, t.isValid) :
    operands = types.reverse := by
  obtain ⟨values, rest, -, has, -⟩ := typed.operands.exists_append
  exact has.eq_of_accepts accepts (ValType.unknown_not_mem valid)

theorem eq_i32 (typed : m.Typed σ ctx (condition :: below) levels)
    (fits : Fits condition .i32) : condition = .i32 := by
  obtain ⟨v, rest, -, has, -⟩ := typed.operands.exists_cons
  exact has.eq_of_fits fits (by decide)

/-- A construct is entered with the values on top as its first operands. -/
theorem enter {args rest : List Value} (typed : m.Typed σ ctx below levels) (label : Label)
    (has : Values σ.size args types) :
    Machine.Typed σ ctx types (⟨.label label, rest⟩ :: levels)
      { m with
        stack := ((m.stack.withOperands rest).mark (.label label)).pushValues args.reverse } where
  frame := typed.frame
  store := typed.store
  operands := by
    show Values σ.size (args.reverse.reverse ++ []) types
    rw [List.reverse_reverse, List.append_nil]
    exact has
  levels := congrArg _ typed.levels

end Machine.Typed

/-- Landing at a level further out, seen from inside one more level. -/
theorem Stack.Lands.outward {n : Nat} {types : List ValType} {l : Level} {levels : List Level}
    {depth : Nat} {s : Stack} (lands : s.Lands n types (l :: levels) (depth + 1)) :
    s.Lands n types levels depth := by
  obtain ⟨inner, target, values, same, length, operands, has⟩ := lands
  cases inner with
  | nil => cases length
  | cons first inner =>
      cases same
      exact ⟨inner, target, values, rfl, Nat.succ.inj length, operands, has⟩

/-- Landing at the innermost level. -/
theorem Stack.Lands.here {n : Nat} {types : List ValType} {l : Level} {levels : List Level}
    {s : Stack} (lands : s.Lands n types (l :: levels) 0) :
    s.levels = levels ∧
      ∃ values, s.operands = values ++ l.below ∧ Values n values types.reverse := by
  obtain ⟨inner, target, values, same, length, operands, has⟩ := lands
  obtain rfl := List.eq_nil_of_length_eq_zero length
  cases same
  exact ⟨rfl, values, operands, has⟩

namespace Run

/-! ## What is safe -/

/-- Sequences of checked instructions are safe. -/
def SequenceSafe (σ : Shape) (fuel : Nat) : Prop :=
  ∀ {ctx labels levels is before after m}, Surrounded ctx labels levels →
    Instruction.allWellFormed is → SequenceTyped ctx labels is before after →
    m.Typed σ ctx before levels →
    Ends (sequence fuel is) m (Exits σ ctx labels levels after) (Halts σ)

/-- Checked instructions are safe. -/
def InstructionSafe (σ : Shape) (fuel : Nat) : Prop :=
  ∀ {ctx labels levels i before after m}, Surrounded ctx labels levels →
    Instruction.wellFormed i → Typing.Typed ctx labels i before after →
    m.Typed σ ctx before levels →
    Ends (instruction fuel i) m (Exits σ ctx labels levels after) (Halts σ)

/-- Constructs with a checked body are safe. A branch to a loop carries its parameters,
one to another construct its results. -/
def ConstructSafe (σ : Shape) (fuel : Nat) : Prop :=
  ∀ {ctx labels levels type body label below m} {loop : Bool},
    Surrounded ctx labels levels → type.Known → Instruction.allWellFormed body →
    label.arity = (if loop then type.params else type.results).length →
    (loop → label.continuation = body) →
    BodyTyped ctx ((if loop then type.params else type.results) :: labels) type body →
    m.Typed σ ctx (type.params.reverse ++ below) levels →
    Ends (construct fuel label type body loop) m
      (Exits σ ctx labels levels (type.results.reverse ++ below)) (Halts σ)

/-- Calls of a function with arguments of its types are safe. -/
def Safe (σ : Shape) (action : Run Unit) (type : FuncType) : Prop :=
  ∀ {m args rest}, m.store.Of σ → m.stack.operands = args ++ rest →
    Values σ.size args type.params.reverse →
    Ends action m (fun _ m' => Machine.Returned σ type.results rest m m') (Halts σ)

/-- Calls of all functions of the store are safe. -/
def CallSafe (σ : Shape) (fuel : Nat) : Prop :=
  ∀ {addr f}, σ.funcs[addr]? = some f → Safe σ (call fuel addr) f.type

/-- Calls of functions of either sort are safe. -/
def FunctionSafe (σ : Shape) (fuel : Nat) : Prop :=
  ∀ {f}, f ∈ σ.funcs → Safe σ (function fuel f) f.type

/-- Calls of checked code are safe. -/
def CodeSafe (σ : Shape) (fuel : Nat) : Prop :=
  ∀ {f ctx}, f.Checked σ ctx → Safe σ (code fuel f) f.type

/-- Checked bodies are safe in a frame of their own, on top of any stack. The frame of
the caller is put back. -/
def FramedSafe (σ : Shape) (fuel : Nat) : Prop :=
  ∀ {ctx body ends frame m}, ctx.Known → Instruction.allWellFormed body →
    SequenceTyped ctx [ctx.results] body [] ends → frame.Typed σ ctx →
    frame.arity = ctx.results.length → m.store.Of σ →
    Ends (framed fuel frame body) m
      (fun exit m' => ∃ inside : Machine, m' = { inside with frame := m.frame } ∧
        Exits σ ctx [ctx.results]
          (⟨.label ⟨frame.arity, []⟩, []⟩ ::
            ⟨.frame frame.arity frame.locals.size, m.stack.operands⟩ :: m.stack.levels)
          ends exit inside)
      (Halts σ)

/-- How an invocation stops: it was refused, or it stops as checked code does. -/
def Stopped (σ : Shape) (m : Machine) : Stop → Machine → Prop
  | .refused _, m' => m' = m
  | stop, m' => Halts σ stop m'

/-- Invocations with values that mean something are safe. -/
def InvokeSafe (σ : Shape) (fuel : Nat) : Prop :=
  ∀ {addr args m}, m.store.Of σ → (∀ v, some v ∈ args → v.Valid σ.size) →
    Ends (invoke fuel addr args) m
      (fun results m' => m'.store.Of σ ∧ ∀ v ∈ results, v.Valid σ.size) (Stopped σ m)

/-- What a host function is told leaves the machine of its caller as it was, and all
values in it mean something. -/
def AttemptSafe (σ : Shape) (fuel : Nat) : Prop :=
  ∀ {addr args m}, m.store.Of σ → (∀ v, some v ∈ args → v.Valid σ.size) →
    Ends (attempt fuel addr args) m
      (fun outcome m' => m'.store.Of σ ∧ m'.stack = m.stack ∧ m'.frame = m.frame ∧
        ∀ results, outcome = .ok results → ∀ v ∈ results, v.Valid σ.size)
      (Halts σ)

/-- Honest host functions are safe: what they give means something, and is of the types
that a tame one promises. -/
def HostSafe (σ : Shape) (fuel : Nat) : Prop :=
  ∀ {program m}, program.Honest σ.size → m.store.Of σ →
    Ends (host fuel program) m
      (fun outcome m' => m'.store.Of σ ∧ m'.stack = m.stack ∧ m'.frame = m.frame ∧
        ∀ results, outcome = .ok results → (∀ v, some v ∈ results → v.Valid σ.size) ∧
          ∀ types, program.Tame σ.size types → Value.matchTypes results types = true)
      (Halts σ)

variable {σ : Shape} {fuel : Nat}

/-! ## Sequences and constructs -/

theorem sequenceSafe_succ (instructionSafe : InstructionSafe σ fuel)
    (sequenceSafe : SequenceSafe σ fuel) : SequenceSafe σ (fuel + 1) := by
  intro ctx labels levels is before after m surrounded wellFormed code typed
  cases code with
  | nil =>
      rw [sequence]
      exact Ends.pure typed
  | @cons _ i rest _ middle _ first others =>
      rw [Instruction.allWellFormed, Bool.and_eq_true] at wellFormed
      rw [sequence]
      apply Ends.bind (instructionSafe surrounded wellFormed.1 first typed)
      intro exit m' exits
      cases exit with
      | normal => exact sequenceSafe surrounded wellFormed.2 others exits
      | returned => exact Ends.pure exits
      | branch depth => exact Ends.pure exits

theorem constructSafe_succ (sequenceSafe : SequenceSafe σ fuel)
    (constructSafe : ConstructSafe σ fuel) : ConstructSafe σ (fuel + 1) := by
  intro ctx labels levels type body label below m loop surrounded known wellFormed arity again code
    typed
  obtain ⟨args, rest, operands, has, under⟩ := typed.operands.exists_append
  have count : type.params.length = args.length := by
    rw [has.length_eq, List.length_reverse]
  have valid : ∀ t ∈ if loop then type.params else type.results, t.isValid := by
    cases loop with
    | false => exact known.results
    | true => exact known.params
  have inside : Surrounded ctx _ (⟨.label label, rest⟩ :: levels) := surrounded.label valid arity
  rw [construct, count]
  apply Ends.step (popValues_eq operands)
  apply Ends.step rfl
  apply Ends.step rfl
  have height : (m.stack.withOperands rest).length = rest.length + Level.count levels := by
    rw [← typed.levels, ← m.stack.base_eq]
    rfl
  cases code with
  | @intro _ _ _ ends code accepts =>
      apply Ends.bind (sequenceSafe inside wellFormed code (typed.enter label has))
      intro exit m' exits
      cases exit with
      | normal =>
          obtain rfl := exits.operands.eq_of_accepts accepts
            (ValType.unknown_not_mem known.results)
          rw [height]
          apply Ends.bind (endLabel_ends exits under)
          intro _ m' typed
          exact Ends.pure typed
      | returned =>
          obtain ⟨running, lands⟩ := exits
          exact Ends.pure ⟨running, lands.outward⟩
      | branch depth =>
          obtain ⟨running, carried, found, lands⟩ := exits
          cases depth with
          | succ depth => exact Ends.pure ⟨running, carried, found, lands.outward⟩
          | zero =>
              cases found
              obtain ⟨outside, values, landed, has⟩ := lands.here
              have operands := has.append under
              rw [← landed] at operands
              have typed : m'.Typed σ ctx _ levels := ⟨running, operands, outside⟩
              cases loop with
              | false => exact Ends.pure typed
              | true =>
                  simp only [again rfl]
                  exact constructSafe surrounded known wellFormed arity again
                    (.intro code accepts) typed

/-! ## Instructions -/

variable {ctx : Context} {labels : List (List ValType)} {levels : List Level}
  {types before after below : List ValType} {i : Instruction} {m : Machine}

theorem funcs_of_call {type : FuncType} (signature : PlainTyped ctx i type)
    (is : i.opcode = Opcode.call) : ctx.funcs[i.callIndex.toNat]? = some type := by
  have computed := Context.signature_eq_ok_iff.mpr signature
  unfold Context.signature at computed
  rw [is] at computed
  exact entry_eq_ok_iff.mp computed

theorem table_of_callIndirect {type : FuncType} (signature : PlainTyped ctx i type)
    (is : i.opcode = Opcode.callIndirect) :
    ∃ table callee, ctx.tables[i.callIndirect.2.toNat]? = some table ∧ table.elem = .funcref ∧
      ctx.types[i.callIndirect.1.toNat]? = some callee ∧
      type = ⟨callee.params ++ [.i32], callee.results⟩ := by
  have computed := Context.signature_eq_ok_iff.mpr signature
  unfold Context.signature at computed
  rw [is] at computed
  obtain ⟨table, found, computed⟩ := bind_eq_ok_iff.mp computed
  obtain ⟨func, computed⟩ := refuse_eq_ok_iff.mp computed
  obtain ⟨callee, found', same⟩ := bind_eq_ok_iff.mp computed
  cases same
  exact ⟨table, callee, entry_eq_ok_iff.mp found, not_not.mp func, entry_eq_ok_iff.mp found', rfl⟩

/-- A call in checked code turns arguments into results. -/
theorem call_ends {addr : Addr} {f : FuncInst} (callSafe : CallSafe σ fuel)
    (found : σ.funcs[addr]? = some f)
    (typed : m.Typed σ ctx (f.type.params.reverse ++ below) levels) :
    Ends (call fuel addr) m (fun _ m' => m'.Typed σ ctx (f.type.results.reverse ++ below) levels)
      (Halts σ) := by
  obtain ⟨args, rest, operands, has, under⟩ := typed.operands.exists_append
  apply Ends.mono (callSafe found typed.store operands has) _ fun _ _ stopped => stopped
  intro _ m' returned
  obtain ⟨results, landed, has⟩ := returned.operands
  refine ⟨⟨?_, returned.store⟩, ?_, returned.levels.trans typed.levels⟩
  · rw [returned.frame]
    exact typed.frame
  · rw [landed]
    exact has.append under

/-- A plain step falls through. -/
theorem step_plain_ends (stays : i.opcode ∉ transfers) (typed : m.Typed σ ctx before levels)
    (runs : ∀ (options : Options) (s : Scope), s.Typed σ ctx before →
      Step.Runs σ ctx (Step.plain options i) s (fun _ => True) after) :
    Ends (instruction (fuel + 1) i) m (Exits σ ctx labels levels after) (Halts σ) := by
  rw [instruction_of_not_transfers stays fuel]
  apply Ends.step rfl
  apply Ends.bind (step_ends typed (runs m.options))
  intro _ m' ends
  exact Ends.pure ends.2

/-- An instruction with a signature. -/
theorem plain_ends {type : FuncType} (callSafe : CallSafe σ fuel) (known : ctx.Known)
    (signature : PlainTyped ctx i type)
    (typed : m.Typed σ ctx (type.params.reverse ++ below) levels) :
    Ends (instruction (fuel + 1) i) m
      (Exits σ ctx labels levels (type.results.reverse ++ below)) (Halts σ) := by
  by_cases direct : i.opcode = Opcode.call
  · have found := funcs_of_call signature direct
    rw [instruction, direct]
    apply Ends.bind (step_ends typed fun _ => callTarget_runs found)
    rintro addr m' ⟨⟨f, held, rfl⟩, typed⟩
    apply Ends.bind (call_ends callSafe held typed)
    intro _ m' typed
    exact Ends.pure typed
  by_cases indirect : i.opcode = Opcode.callIndirect
  · obtain ⟨table, callee, found, func, found', rfl⟩ := table_of_callIndirect signature indirect
    rw [List.reverse_append] at typed
    rw [instruction, indirect]
    apply Ends.bind (step_ends typed fun _ => indirectTarget_runs found' found func)
    rintro addr m' ⟨⟨f, held, rfl⟩, typed⟩
    apply Ends.bind (call_ends callSafe held typed)
    intro _ m' typed
    exact Ends.pure typed
  have stays : i.opcode ∉ transfers := by
    intro mem
    have ordinary := Context.not_special_of_plainTyped signature
    simp only [transfers, List.mem_cons, List.not_mem_nil, or_false] at mem
    rcases mem with is | is | is | is | is | is | is | is | is
    case inr.inr.inr.inr.inr.inr.inr.inl => exact direct is
    case inr.inr.inr.inr.inr.inr.inr.inr => exact indirect is
    all_goals
      rw [is] at ordinary
      exact ordinary (by decide)
  apply step_plain_ends stays typed
  intro options s typed
  exact Step.plain_runs known.tables signature direct indirect typed

/-- The parts of a construct that comes from a binary. -/
theorem parts_of_construct (wellFormed : i.wellFormed) (is : Opcode.isConstruct i.opcode) :
    (∃ b, i.blockType? = some b) ∧ Instruction.allWellFormed i.body ∧
      Instruction.allWellFormed i.orElse := by
  obtain ⟨op, imm, body, orElse⟩ := i
  obtain ⟨⟨b, rfl, -⟩, body, orElse, -⟩ := (Instruction.wellFormed_construct is).mp wellFormed
  exact ⟨⟨b, rfl⟩, body, orElse⟩

/-- A construct from its signature on. -/
theorem construct_ends {type : FuncType} {operands : List ValType} {body : List Instruction}
    {label : Label} {loop : Bool} (constructSafe : ConstructSafe σ fuel)
    (surrounded : Surrounded ctx labels levels) (known : type.Known)
    (wellFormed : Instruction.allWellFormed body)
    (arity : label.arity = (if loop then type.params else type.results).length)
    (again : loop → label.continuation = body)
    (code : BodyTyped ctx ((if loop then type.params else type.results) :: labels) type body)
    (accepts : Accepts type.params operands) (typed : m.Typed σ ctx (operands ++ below) levels) :
    Ends (construct fuel label type body loop) m
      (Exits σ ctx labels levels (type.results.reverse ++ below)) (Halts σ) := by
  obtain rfl := typed.accepted accepts known.params
  exact constructSafe surrounded known wellFormed arity again code typed

/-! ### Operands -/

theorem drop_ends {type : ValType} (is : i.opcode = Opcode.drop)
    (typed : m.Typed σ ctx (type :: below) levels) :
    Ends (instruction (fuel + 1) i) m (Exits σ ctx labels levels below) (Halts σ) := by
  apply step_plain_ends (by rw [is]; decide) typed
  intro options s typed
  unfold Step.plain
  rw [is]
  apply Step.Runs.bind (Step.popValue_runs typed)
  intro v s _ typed
  exact Step.Runs.pure trivial typed

theorem select_ends {type condition upper lower : ValType} (is : i.opcode = Opcode.select)
    (condition_fits : Fits condition .i32) (upper_fits : upper = .unknown ∨ upper = type)
    (lower_fits : lower = .unknown ∨ lower = type)
    (typed : m.Typed σ ctx (condition :: upper :: lower :: below) levels) :
    Ends (instruction (fuel + 1) i) m (Exits σ ctx labels levels (type :: below)) (Halts σ) := by
  obtain rfl := typed.eq_i32 condition_fits
  obtain ⟨_, rest, -, -, others⟩ := typed.operands.exists_cons
  obtain ⟨_, rest, -, has, others⟩ := others.exists_cons
  obtain ⟨_, rest, -, has', -⟩ := others.exists_cons
  obtain rfl := upper_fits.resolve_left has.ne_unknown
  obtain rfl := lower_fits.resolve_left has'.ne_unknown
  apply step_plain_ends (by rw [is]; decide) typed
  intro options s typed
  unfold Step.plain
  rw [is]
  exact Step.select_runs typed

theorem refIsNull_ends {type : ValType} (is : i.opcode = Opcode.refIsNull)
    (reference : type = .unknown ∨ type.isRef) (typed : m.Typed σ ctx (type :: below) levels) :
    Ends (instruction (fuel + 1) i) m (Exits σ ctx labels levels (.i32 :: below)) (Halts σ) := by
  obtain ⟨_, rest, -, has, -⟩ := typed.operands.exists_cons
  have numeric : Numeric.Operation.ofOpcode Opcode.refIsNull = none :=
    Numeric.Operation.eq_none_of_le (by decide)
  apply step_plain_ends (by rw [is]; decide) typed
  intro options s typed
  unfold Step.plain
  simp only [is, numeric]
  exact Step.refIsNull_runs (reference.resolve_left has.ne_unknown) typed

/-! ### Branches -/

theorem unreachable_ends (is : i.opcode = Opcode.unreachable)
    (typed : m.Typed σ ctx before levels) :
    Ends (instruction (fuel + 1) i) m (Exits σ ctx labels levels after) (Halts σ) := by
  apply step_plain_ends (by rw [is]; decide) typed
  intro options s typed
  unfold Step.plain
  rw [is]
  exact Step.Runs.throw .unreachable typed

theorem br_ends {operands : List ValType} (surrounded : Surrounded ctx labels levels)
    (is : i.opcode = Opcode.br) (found : labels[i.branchLabel.toNat]? = some types)
    (accepts : Accepts types operands) (typed : m.Typed σ ctx (operands ++ below) levels) :
    Ends (instruction (fuel + 1) i) m (Exits σ ctx labels levels after) (Halts σ) := by
  obtain rfl := typed.accepted accepts (surrounded.valid _ (List.mem_of_getElem? found))
  rw [instruction, is]
  exact branch_ends surrounded.within found typed

theorem brIf_ends {condition : ValType} {operands : List ValType}
    (surrounded : Surrounded ctx labels levels) (is : i.opcode = Opcode.brIf)
    (found : labels[i.branchLabel.toNat]? = some types) (fits : Fits condition .i32)
    (accepts : Accepts types operands)
    (typed : m.Typed σ ctx (condition :: (operands ++ below)) levels) :
    Ends (instruction (fuel + 1) i) m (Exits σ ctx labels levels (types.reverse ++ below))
      (Halts σ) := by
  obtain rfl := typed.eq_i32 fits
  rw [instruction, is]
  apply Ends.bind (step_ends typed fun _ => Step.popI32_runs)
  intro bits m' popped
  obtain rfl := popped.2.accepted accepts (surrounded.valid _ (List.mem_of_getElem? found))
  split
  · exact Ends.pure popped.2
  · exact branch_ends surrounded.within found popped.2

/-- Wherever a table of labels leads, the operands are accepted. -/
theorem exists_branchTarget {operands : List ValType}
    (found : labels[i.branchTable.2.toNat]? = some types) (accepts : Accepts types operands)
    (others : ∀ label ∈ i.branchTable.1, ∃ carried, labels[label.toNat]? = some carried ∧
      carried.length = types.length ∧ Accepts carried operands) (index : UInt32) :
    ∃ carried, labels[(branchTarget i.branchTable.1 i.branchTable.2 index).toNat]? =
      some carried ∧ Accepts carried operands := by
  unfold branchTarget
  cases picked : i.branchTable.1[index.toNat]? with
  | none => exact ⟨types, found, accepts⟩
  | some label =>
      obtain ⟨carried, known, -, accepts⟩ := others label (List.mem_of_getElem? picked)
      exact ⟨carried, known, accepts⟩

theorem brTable_ends {condition : ValType} {operands : List ValType}
    (surrounded : Surrounded ctx labels levels) (is : i.opcode = Opcode.brTable)
    (found : labels[i.branchTable.2.toNat]? = some types) (fits : Fits condition .i32)
    (accepts : Accepts types operands)
    (others : ∀ label ∈ i.branchTable.1, ∃ carried, labels[label.toNat]? = some carried ∧
      carried.length = types.length ∧ Accepts carried operands)
    (typed : m.Typed σ ctx (condition :: (operands ++ below)) levels) :
    Ends (instruction (fuel + 1) i) m (Exits σ ctx labels levels after) (Halts σ) := by
  obtain rfl := typed.eq_i32 fits
  rw [instruction, is]
  apply Ends.bind (step_ends typed fun _ => Step.popI32_runs)
  intro index m' popped
  obtain ⟨carried, known, accepts⟩ := exists_branchTarget found accepts others index
  obtain rfl := popped.2.accepted accepts (surrounded.valid _ (List.mem_of_getElem? known))
  exact branch_ends surrounded.within known popped.2

theorem ret_ends {operands : List ValType} (surrounded : Surrounded ctx labels levels)
    (is : i.opcode = Opcode.ret) (accepts : Accepts ctx.results operands)
    (typed : m.Typed σ ctx (operands ++ below) levels) :
    Ends (instruction (fuel + 1) i) m (Exits σ ctx labels levels after) (Halts σ) := by
  obtain rfl := typed.accepted accepts surrounded.known.results
  rw [instruction, is]
  exact leave_ends surrounded.within typed

/-! ### Constructs -/

section Constructs

variable {type : FuncType} {operands : List ValType} (constructSafe : ConstructSafe σ fuel)
  (surrounded : Surrounded ctx labels levels) (wellFormed : i.wellFormed)
  (found : BlockType.signature? ctx.types (i.blockType?.getD 0) = some type)

include constructSafe surrounded wellFormed found

theorem block_ends (is : i.opcode = Opcode.block) (accepts : Accepts type.params operands)
    (body : BodyTyped ctx (type.results :: labels) type i.body)
    (typed : m.Typed σ ctx (operands ++ below) levels) :
    Ends (instruction (fuel + 1) i) m
      (Exits σ ctx labels levels (type.results.reverse ++ below)) (Halts σ) := by
  have known := BlockType.known_signature surrounded.known.types found
  obtain ⟨⟨b, block⟩, wellFormed, -⟩ := parts_of_construct wellFormed (by rw [is]; decide)
  rw [block] at found
  rw [instruction, is]
  apply Ends.step (blockSignature_eq typed.toRunning block found)
  exact construct_ends constructSafe surrounded known wellFormed rfl (by simp) body accepts typed

theorem loop_ends (is : i.opcode = Opcode.loop) (accepts : Accepts type.params operands)
    (body : BodyTyped ctx (type.params :: labels) type i.body)
    (typed : m.Typed σ ctx (operands ++ below) levels) :
    Ends (instruction (fuel + 1) i) m
      (Exits σ ctx labels levels (type.results.reverse ++ below)) (Halts σ) := by
  have known := BlockType.known_signature surrounded.known.types found
  obtain ⟨⟨b, block⟩, wellFormed, -⟩ := parts_of_construct wellFormed (by rw [is]; decide)
  rw [block] at found
  rw [instruction, is]
  apply Ends.step (blockSignature_eq typed.toRunning block found)
  exact construct_ends constructSafe surrounded known wellFormed rfl (fun _ => rfl) body accepts
    typed

theorem ifElse_ends {condition : ValType} (is : i.opcode = Opcode.ifElse)
    (fits : Fits condition .i32) (accepts : Accepts type.params operands)
    (body : BodyTyped ctx (type.results :: labels) type i.body)
    (orElse : BodyTyped ctx (type.results :: labels) type i.orElse)
    (typed : m.Typed σ ctx (condition :: (operands ++ below)) levels) :
    Ends (instruction (fuel + 1) i) m
      (Exits σ ctx labels levels (type.results.reverse ++ below)) (Halts σ) := by
  have known := BlockType.known_signature surrounded.known.types found
  obtain rfl := typed.eq_i32 fits
  obtain ⟨⟨b, block⟩, wellFormed, wellFormed'⟩ :=
    parts_of_construct wellFormed (by rw [is]; decide)
  rw [block] at found
  rw [instruction, is]
  apply Ends.bind (step_ends typed fun _ => Step.popI32_runs)
  intro bits m' popped
  apply Ends.step (blockSignature_eq popped.2.toRunning block found)
  split
  · exact construct_ends constructSafe surrounded known wellFormed' rfl (by simp) orElse accepts
      popped.2
  · exact construct_ends constructSafe surrounded known wellFormed rfl (by simp) body accepts
      popped.2

end Constructs

/-! ### All instructions -/

theorem instructionSafe_succ (constructSafe : ConstructSafe σ fuel) (callSafe : CallSafe σ fuel) :
    InstructionSafe σ (fuel + 1) := by
  intro ctx labels levels i before after m surrounded wellFormed code typed
  cases code with
  | plain signature accepts =>
      obtain rfl := typed.accepted accepts (signature.valid_params surrounded.known wellFormed)
      exact plain_ends callSafe surrounded.known signature typed
  | drop is => exact drop_ends is typed
  | select is _ condition upper lower => exact select_ends is condition upper lower typed
  | refIsNull is reference => exact refIsNull_ends is reference typed
  | unreachable is => exact unreachable_ends is typed
  | br is found accepts => exact br_ends surrounded is found accepts typed
  | brIf is found condition accepts => exact brIf_ends surrounded is found condition accepts typed
  | brTable is found condition accepts others =>
      exact brTable_ends surrounded is found condition accepts others typed
  | ret is accepts => exact ret_ends surrounded is accepts typed
  | block is found accepts body =>
      exact block_ends constructSafe surrounded wellFormed found is accepts body typed
  | loop is found accepts body =>
      exact loop_ends constructSafe surrounded wellFormed found is accepts body typed
  | ifElse is found condition accepts body orElse =>
      exact ifElse_ends constructSafe surrounded wellFormed found is condition accepts body orElse
        typed

/-! ## Functions -/

/-- Every variable of a type that means something has a first value. -/
theorem exists_zero {t : ValType} (n : Nat) (valid : t.isValid) :
    ∃ v, Value.zero? t = some v ∧ v.Has n t := by
  simp only [ValType.isValid, Bool.or_eq_true, beq_iff_eq] at valid
  rcases valid with (((((rfl | rfl) | rfl) | rfl) | rfl) | rfl) | rfl
  · exact ⟨_, rfl, .i32 0⟩
  · exact ⟨_, rfl, .i64 0⟩
  · exact ⟨_, rfl, .f32 0⟩
  · exact ⟨_, rfl, .f64 0⟩
  · exact ⟨_, rfl, .v128 0⟩
  · exact ⟨_, rfl, rfl, rfl⟩
  · exact ⟨_, rfl, rfl, rfl⟩

theorem exists_localZeros {types : List ValType} (n : Nat) (valid : ∀ t ∈ types, t.isValid) :
    ∃ zeros, localZeros types = .ok zeros ∧ Values n zeros types := by
  induction types with
  | nil => exact ⟨[], rfl, .nil⟩
  | cons t types ih =>
      obtain ⟨v, zero, has⟩ := exists_zero n (valid t List.mem_cons_self)
      obtain ⟨zeros, rest, typed⟩ := ih fun t mem => valid t (List.mem_cons_of_mem _ mem)
      refine ⟨v :: zeros, ?_, .cons has typed⟩
      unfold localZeros at rest ⊢
      rw [List.mapM_cons, zero, rest]
      rfl

theorem framedSafe_succ (sequenceSafe : SequenceSafe σ fuel) : FramedSafe σ (fuel + 1) := by
  intro ctx body ends frame m known wellFormed code running arity of
  have surrounded : Surrounded ctx [ctx.results]
      (⟨.label ⟨frame.arity, []⟩, []⟩ ::
        ⟨.frame frame.arity frame.locals.size, m.stack.operands⟩ :: m.stack.levels) := by
    refine ⟨known, ?_, .label arity ?_⟩
    · intro types mem
      rw [List.mem_singleton.mp mem]
      exact known.results
    · rw [arity]
      exact .frame
  have ran := sequenceSafe (m := { m with
      stack := (m.stack.mark (.frame frame.arity frame.locals.size)).mark (.label ⟨frame.arity, []⟩)
      frame := some frame })
    surrounded wellFormed code ⟨⟨⟨frame, rfl, running⟩, of⟩, .nil, rfl⟩
  unfold Ends at ran ⊢
  rw [framed]
  split at ran
  · next exit inside ended =>
      simp only [ended]
      exact ⟨inside, rfl, ran⟩
  · next stop inside ended =>
      simp only [ended]
      cases stop with
      | trap t => exact ran
      | refused r => exact ran.elim
      | outOfFuel => trivial

/-- Unwinding to the frame leaves the results on top of what the call found. -/
theorem unwind_returns {before : Machine} {results : List ValType} {values rest under : List Value}
    {inner : List Level} {marker : Marker} (of : m.store.Of σ) (frame : m.frame = before.frame)
    (operands : m.stack.operands = values ++ under)
    (levels : m.stack.levels = inner ++ ⟨marker, rest⟩ :: before.stack.levels)
    (has : Values σ.size values results.reverse) :
    Ends (unwind (rest.length + Level.count before.stack.levels) results.length) m
      (fun _ m' => Machine.Returned σ results rest before m') (Halts σ) := by
  obtain ⟨s, unwound, above, outside⟩ := unwind_eq operands levels
  have count : results.length = values.length := by
    rw [has.length_eq, List.length_reverse]
  rw [count]
  apply Ends.of_ok unwound
  exact ⟨⟨values, above, has⟩, outside, frame, of⟩

theorem codeSafe_succ (framedSafe : FramedSafe σ fuel) : CodeSafe σ (fuel + 1) := by
  intro f ctx checked m args rest of operands has
  obtain ⟨zeros, zero, typed⟩ := exists_localZeros σ.size fun t mem =>
    checked.known.locals t (checked.locals ▸ List.mem_append_right _ mem)
  have count : f.type.params.length = args.length := by
    rw [has.length_eq, List.length_reverse]
  have running : Frame.Typed σ ctx ⟨f.home, (args.reverse ++ zeros).toArray, f.type.results.length⟩ := by
    refine ⟨checked.home, ?_⟩
    rw [checked.locals]
    have params := has.reverse
    rw [List.reverse_reverse] at params
    exact params.append typed
  have height : (m.stack.withOperands rest).length = rest.length + Level.count m.stack.levels := by
    rw [← m.stack.base_eq]
    rfl
  rw [code, count]
  apply Ends.step (popValues_eq operands)
  simp only [zero]
  apply Ends.step rfl
  rw [height]
  cases checked.typed with
  | @intro _ _ _ ends body accepts =>
      apply Ends.bind (framedSafe (m := { m with stack := m.stack.withOperands rest })
        checked.known checked.wellFormed body running (congrArg _ checked.results.symm) of)
      rintro exit _ ⟨inside, rfl, exits⟩
      cases exit with
      | normal =>
          obtain rfl := exits.operands.eq_of_accepts accepts
            (ValType.unknown_not_mem checked.known.results)
          have typed := exits.operands
          rw [checked.results] at typed
          exact unwind_returns exits.store rfl (List.append_nil _).symm
            (show inside.stack.levels = [_] ++ _ :: m.stack.levels from exits.levels) typed
      | returned =>
          obtain ⟨running, lands⟩ := exits
          obtain ⟨outside, values, landed, typed⟩ := lands.outward.here
          rw [checked.results] at typed
          exact Ends.pure ⟨⟨values, landed, typed⟩, outside, rfl, running.store⟩
      | branch depth =>
          obtain ⟨running, carried, found, lands⟩ := exits
          cases depth with
          | succ depth => cases found
          | zero =>
              cases found
              obtain ⟨outside, values, landed, typed⟩ := lands.here
              rw [checked.results] at typed
              exact unwind_returns running.store rfl landed
                (show inside.stack.levels = [] ++ _ :: m.stack.levels from outside) typed

/-- Looking an exported function up leaves the machine as it is. -/
theorem namedExport_ends (inst func : String) (m : Machine) :
    Ends (namedExport inst func) m (fun _ m' => m' = m) (Halts σ) := by
  unfold namedExport
  apply Ends.step rfl
  split
  · exact Ends.pure rfl
  · split
    · exact Ends.pure rfl
    · exact Ends.pure rfl

/-- A host function that comes to `next` in one step goes on as `next` does, and promises no more
than `next`. -/
theorem HostSafe.goesOn (hostSafe : HostSafe σ fuel) {program next : HostProgram}
    {m m₁ : Machine} (honest : next.Honest σ.size) (of : m₁.store.Of σ)
    (stack : m₁.stack = m.stack) (frame : m₁.frame = m.frame)
    (promised : ∀ types, program.Tame σ.size types → next.Tame σ.size types) :
    Ends (host fuel next) m₁
      (fun outcome m' => m'.store.Of σ ∧ m'.stack = m.stack ∧ m'.frame = m.frame ∧
        ∀ results, outcome = .ok results → (∀ v, some v ∈ results → v.Valid σ.size) ∧
          ∀ types, program.Tame σ.size types → Value.matchTypes results types = true)
      (Halts σ) := by
  refine Ends.mono (hostSafe honest of) ?_ fun _ _ halts => halts
  rintro outcome m' ⟨of', stack', frame', given⟩
  refine ⟨of', stack'.trans stack, frame'.trans frame, fun results same => ?_⟩
  obtain ⟨valid, typed⟩ := given results same
  exact ⟨valid, fun types tame => typed types (promised types tame)⟩

theorem hostSafe_succ (attemptSafe : AttemptSafe σ fuel) (hostSafe : HostSafe σ fuel) :
    HostSafe σ (fuel + 1) := by
  intro program m honest of
  cases program with
  | finish results =>
      rw [host]
      refine Ends.pure ⟨of, rfl, rfl, ?_⟩
      intro _ same
      cases same
      exact ⟨honest, fun types tame => tame.1⟩
  | fail fault =>
      rw [host]
      refine Ends.pure ⟨of, rfl, rfl, ?_⟩
      intro _ same
      cases same
  | record entry next =>
      rw [host]
      apply Ends.step rfl
      exact hostSafe.goesOn honest of rfl rfl fun _ tame => tame
  | keep name values next =>
      obtain ⟨valid, honest⟩ := honest
      rw [host]
      apply Ends.step rfl
      exact hostSafe.goesOn honest (of.keep name valid) rfl rfl fun _ tame => tame.2
  | retrieve name next =>
      have valid := of.typed.retrieve name
      rw [host]
      apply Ends.step rfl
      exact hostSafe.goesOn (honest _ valid) of rfl rfl fun _ tame => tame _ valid
  | view inst memory request next =>
      have viewed := m.store.useView_viewed m.names inst memory request
      rw [host]
      apply Ends.step rfl
      exact hostSafe.goesOn (honest _) (of.viewed viewed) rfl rfl fun _ tame => tame _
  | callExport inst func args next =>
      -- One that calls back is not tame, so nothing is promised of the types it gives.
      obtain ⟨passed, failing, going⟩ := honest
      rw [host]
      apply Ends.bind (namedExport_ends inst func m)
      rintro (fault | addr) _ rfl
      · exact hostSafe.goesOn (failing fault) of rfl rfl fun _ tame => tame.elim
      · apply Ends.bind (attemptSafe of fun v mem => passed v (by simpa using mem))
        rintro outcome m' ⟨of', stack, frame, told⟩
        have honest : (next outcome).Honest σ.size := by
          cases outcome with
          | error fault => exact failing fault
          | ok results => exact going results (told results rfl)
        exact hostSafe.goesOn honest of' stack frame fun _ tame => tame.elim

theorem functionSafe_succ (lawful : σ.Lawful) (codeSafe : CodeSafe σ fuel)
    (hostSafe : HostSafe σ fuel) : FunctionSafe σ (fuel + 1) := by
  intro f mem
  cases f with
  | code f =>
      obtain ⟨ctx, checked⟩ := lawful.code f mem
      rw [function]
      exact codeSafe checked
  | host f =>
      intro m args rest of operands has
      change Values σ.size args f.type.params.reverse at has
      have count : f.type.params.length = args.length := by
        rw [has.length_eq, List.length_reverse]
      have params := has.reverse
      rw [List.reverse_reverse] at params
      rw [function, count]
      apply Ends.step (popValues_eq operands)
      apply Ends.bind (hostSafe (m := { m with stack := m.stack.withOperands rest })
        (lawful.host f mem _ params) of)
      rintro outcome m' ⟨of, stack, frame, results⟩
      cases outcome with
      | error fault => exact Ends.throw ⟨.expected (.hostFailed _ _), of⟩
      | ok given =>
          obtain ⟨valid, matches_of_tame⟩ := results given rfl
          by_cases matched : Value.matchTypes given f.type.results = true
          · obtain ⟨values, rfl, typed⟩ := Value.values_of_matchTypes matched valid
            simp only [matched, if_true]
            refine ⟨⟨values.reverse, ?_, typed.reverse⟩, ?_, frame, of⟩
            · simp [stack, Stack.pushValues, Stack.withOperands]
            · simp [stack, Stack.pushValues, Stack.withOperands]
          · simp only [matched]
            -- Had it been tame on its arguments, its results would have matched.
            refine Ends.throw ⟨.hostResults mem fun tame => ?_, of⟩
            exact matched (matches_of_tame _ (tame _ params))

theorem callSafe_succ (functionSafe : FunctionSafe σ fuel) : CallSafe σ (fuel + 1) := by
  intro addr f found m args rest of operands has
  have held : m.store.funcs[addr]? = some f := (of.func addr).trans found
  have ran := functionSafe (List.mem_of_getElem? found) (m := { m with depth := m.depth + 1 })
    of operands has
  unfold Ends at ran ⊢
  rw [call]
  simp only [held]
  by_cases deep : m.options.callLimit ≤ m.depth
  · rw [if_pos deep]
    exact ⟨.expected .callStackExhausted, of⟩
  · rw [if_neg deep]
    split at ran
    · next ended =>
        simp only [ended]
        exact ⟨ran.operands, ran.levels, ran.frame, ran.store⟩
    · next stop _ ended =>
        simp only [ended]
        cases stop with
        | trap t => exact ran
        | refused r => exact ran.elim
        | outOfFuel => trivial

/-! ## Invocations -/

/-- Invoking a function of the store on arguments of its types gives values of its
result types or halts. -/
theorem invoke_halts_succ (callSafe : CallSafe σ fuel) (of : m.store.Of σ) {addr : Addr}
    {f : FuncInst} (found : σ.funcs[addr]? = some f) {args : List (Option Value)}
    (matched : Value.matchTypes args f.type.params = true)
    (valid : ∀ v, some v ∈ args → v.Valid σ.size) :
    Ends (invoke (fuel + 1) addr args) m
      (fun results m' => Values σ.size results f.type.results ∧ m'.store.Of σ) (Halts σ) := by
  have held : m.store.funcs[addr]? = some f := (of.func addr).trans found
  obtain ⟨values, rfl, typed⟩ := Value.values_of_matchTypes matched valid
  have passed : (values.map some).filterMap id = values := by simp
  have ran := callSafe found (m := { m with
      stack := m.stack.pushValues ((values.map some).filterMap id) }) of
    (by rw [passed]; rfl) typed.reverse
  unfold Ends at ran ⊢
  rw [invoke]
  simp only [held, Option.map_some, matched, Bool.not_true, Bool.false_eq_true, if_false]
  split at ran
  · next m' ended =>
      simp only [ended]
      obtain ⟨results, landed, has⟩ := ran.operands
      have count : f.type.results.length = results.length := by
        rw [has.length_eq, List.length_reverse]
      have popped := Stack.popValues?_append landed
      have base : m'.stack.base = m.stack.base := by
        rw [m'.stack.base_eq, m.stack.base_eq, ran.levels]
        rfl
      have height : (m'.stack.withOperands m.stack.operands).length = m.stack.length := by
        show m.stack.operands.length + m'.stack.base = _
        rw [base]
        rfl
      have typed := has.reverse
      rw [List.reverse_reverse] at typed
      simp only [count, popped, height, if_true]
      exact ⟨typed, ran.store⟩
  · next stop m' ended =>
      simp only [ended]
      cases stop with
      | trap t => exact ran
      | refused r => exact ran.elim
      | outOfFuel => trivial

/-- Arguments that do not match the parameters are refused before anything is run. -/
theorem invoke_unmatched (fuel : Nat) {addr : Addr} {f : FuncInst} {args : List (Option Value)}
    (held : m.store.funcs[addr]? = some f)
    (unmatched : Value.matchTypes args f.type.params = false) :
    invoke (fuel + 1) addr args m = .error (.refused (.arguments args f.type.params)) m := by
  rw [invoke]
  simp only [held, Option.map_some, unmatched, Bool.not_false, if_true]

/-- So is an address at which there is no function. -/
theorem invoke_nowhere (fuel : Nat) {addr : Addr} (args : List (Option Value))
    (held : m.store.funcs[addr]? = none) :
    invoke (fuel + 1) addr args m = .error (.refused .address) m := by
  rw [invoke]
  simp only [held, Option.map_none]

theorem invokeSafe_succ (callSafe : CallSafe σ fuel) : InvokeSafe σ (fuel + 1) := by
  intro addr args m of valid
  have held := of.func addr
  cases found : σ.funcs[addr]? with
  | none => exact Ends.of_error (invoke_nowhere fuel args (held.trans found)) rfl
  | some f =>
      cases matched : Value.matchTypes args f.type.params with
      | false => exact Ends.of_error (invoke_unmatched fuel (held.trans found) matched) rfl
      | true =>
          refine Ends.mono (invoke_halts_succ callSafe of found matched valid) ?_ ?_
          · rintro results m' ⟨typed, of⟩
            exact ⟨of, fun v mem => typed.valid mem⟩
          · intro stop m' halts
            cases stop with
            | refused r => exact halts.elim
            | trap t => exact halts
            | outOfFuel => exact halts

theorem attemptSafe_succ (invokeSafe : InvokeSafe σ fuel) : AttemptSafe σ (fuel + 1) := by
  intro addr args m of valid
  have safe : Ends (invoke fuel addr args) m _ _ := invokeSafe of valid
  have ends := safe.both (invoke_restored fuel addr args m)
  unfold Ends at ends ⊢
  rw [attempt]
  split at ends
  · next results m' ended =>
      obtain ⟨⟨of', typed⟩, restored⟩ := ends
      simp only [ended]
      refine ⟨of', restored.stack, restored.frame, ?_⟩
      intro _ same
      cases same
      exact typed
  · next stop m' ended =>
      obtain ⟨stopped, restored⟩ := ends
      simp only [ended]
      cases stop with
      | trap t =>
          have restored := restored (by simp)
          exact ⟨stopped.2, restored.stack, restored.frame, by simp⟩
      | refused r =>
          cases stopped
          exact ⟨of, rfl, rfl, by simp⟩
      | outOfFuel => trivial

/-! ## All of them -/

/-- Everything that runs code is safe with an amount of fuel. -/
structure AllSafe (σ : Shape) (fuel : Nat) : Prop where
  sequence : SequenceSafe σ fuel
  instruction : InstructionSafe σ fuel
  construct : ConstructSafe σ fuel
  call : CallSafe σ fuel
  function : FunctionSafe σ fuel
  code : CodeSafe σ fuel
  framed : FramedSafe σ fuel
  host : HostSafe σ fuel
  attempt : AttemptSafe σ fuel
  invoke : InvokeSafe σ fuel

/-- Using up the fuel is a stop that says nothing. -/
theorem outOfFuel_ends {α : Type} {Good : α → Machine → Prop} :
    Ends (throw .outOfFuel) m Good (Halts σ) := Ends.throw trivial

theorem allSafe (lawful : σ.Lawful) (fuel : Nat) : AllSafe σ fuel := by
  induction fuel with
  | zero =>
      constructor
      · unfold SequenceSafe
        intros
        rw [sequence]
        exact outOfFuel_ends
      · unfold InstructionSafe
        intros
        rw [instruction]
        exact outOfFuel_ends
      · unfold ConstructSafe
        intros
        rw [construct]
        exact outOfFuel_ends
      · intro addr f found m args rest of operands has
        rw [call]
        exact outOfFuel_ends
      · intro f mem m args rest of operands has
        rw [function]
        exact outOfFuel_ends
      · intro f ctx checked m args rest of operands has
        rw [code]
        exact outOfFuel_ends
      · unfold FramedSafe
        intros
        rw [framed]
        exact outOfFuel_ends
      · unfold HostSafe
        intros
        rw [host]
        exact outOfFuel_ends
      · unfold AttemptSafe
        intros
        rw [attempt]
        exact outOfFuel_ends
      · unfold InvokeSafe
        intros
        rw [invoke]
        exact Ends.throw trivial
  | succ fuel ih =>
      exact {
        sequence := sequenceSafe_succ ih.instruction ih.sequence
        instruction := instructionSafe_succ ih.construct ih.call
        construct := constructSafe_succ ih.sequence ih.construct
        call := callSafe_succ ih.function
        function := functionSafe_succ lawful ih.code ih.host
        code := codeSafe_succ ih.framed
        framed := framedSafe_succ ih.sequence
        host := hostSafe_succ ih.attempt ih.host
        attempt := attemptSafe_succ ih.invoke
        invoke := invokeSafe_succ ih.call }

/-! ## Any amount of fuel -/

/-- How checked code stops when all host functions are tame. -/
def Stops (σ : Shape) : Stop → Machine → Prop
  | .trap t, m => t.Expected ∧ m.store.Of σ
  | .refused _, _ => False
  | .outOfFuel, _ => True

/-- Invoking a function of the store on arguments of its types gives values of its
result types or halts, whatever fuel there is. -/
theorem invoke_halts (lawful : σ.Lawful) (of : m.store.Of σ) {addr : Addr} {f : FuncInst}
    (found : σ.funcs[addr]? = some f) {args : List (Option Value)}
    (matched : Value.matchTypes args f.type.params = true)
    (valid : ∀ v, some v ∈ args → v.Valid σ.size) (fuel : Nat) :
    Ends (invoke fuel addr args) m
      (fun results m' => Values σ.size results f.type.results ∧ m'.store.Of σ) (Halts σ) := by
  cases fuel with
  | zero =>
      rw [invoke]
      exact outOfFuel_ends
  | succ fuel => exact invoke_halts_succ (allSafe lawful fuel).call of found matched valid

/-- With host functions that are tame the traps are those that checked code runs into by
itself. -/
theorem invoke_ends (sound : σ.Sound) (of : m.store.Of σ) {addr : Addr} {f : FuncInst}
    (found : σ.funcs[addr]? = some f) {args : List (Option Value)}
    (matched : Value.matchTypes args f.type.params = true)
    (valid : ∀ v, some v ∈ args → v.Valid σ.size) (fuel : Nat) :
    Ends (invoke fuel addr args) m
      (fun results m' => Values σ.size results f.type.results ∧ m'.store.Of σ) (Stops σ) := by
  refine Ends.mono (invoke_halts sound.lawful of found matched valid fuel)
    (fun _ _ good => good) ?_
  intro stop m' halts
  cases stop with
  | trap t => exact ⟨sound.expected halts.1, halts.2⟩
  | refused r => exact halts
  | outOfFuel => trivial

/-- However an invocation ends, the store stays as code relies on it. -/
theorem invoke_keeps (lawful : σ.Lawful) (of : m.store.Of σ) (addr : Addr)
    {args : List (Option Value)} (valid : ∀ v, some v ∈ args → v.Valid σ.size) (fuel : Nat) :
    Ends (invoke fuel addr args) m (fun _ m' => m'.store.Of σ)
      (fun stop m' => stop ≠ .outOfFuel → m'.store.Of σ) := by
  refine Ends.mono ((allSafe lawful fuel).invoke of valid) (fun _ _ good => good.1) ?_
  intro stop m' stopped fueled
  cases stop with
  | trap t => exact stopped.2
  | refused r =>
      cases stopped
      exact of
  | outOfFuel => exact absurd rfl fueled

end Run

end WasmMachine
