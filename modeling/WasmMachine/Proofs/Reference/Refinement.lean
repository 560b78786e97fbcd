/-
# The machine refines the reference interpreter

With the same fuel the machine does to the store what the interpreter does, and ends
as it ends.  The induction is on the fuel.  It carries along, for every body, which
levels lie under its operands: the labels in reach are exactly the label levels above
the nearest frame, however often a loop has started over, and a signal that arrives at
a construct has cut the stack down to exactly what the construct found.

The stack and the frame of whoever invokes a function play no part in what the function
does, and both are as before when the invocation ends.
-/

import WasmMachine.Proofs.Reference.Agreement

namespace WasmMachine.Run

/-- The instructions that transfer control. All others are plain steps. -/
def transfers : List UInt8 :=
  [Opcode.block, Opcode.loop, Opcode.ifElse, Opcode.br, Opcode.brIf, Opcode.brTable, Opcode.ret,
    Opcode.call, Opcode.callIndirect]

theorem instruction_of_not_transfers {i : Instruction} (stays : i.opcode ∉ transfers)
    (fuel : Nat) : instruction (fuel + 1) i = (do
      step (Step.plain (← get).options i)
      return .normal) := by
  rw [instruction]
  split
  case h_10 => rfl
  all_goals
    next is =>
      rw [is] at stays
      exact absurd (by decide) stays

end WasmMachine.Run

namespace WasmMachine.Reference

open Level (targets)

/-- A function has taken its arguments from the values of its caller and left its
results there. -/
structure Completed (setting : Setting) (frame : Option Frame) (rest : List Value)
    (levels : List Level) (type : FuncType) (s s' : State) (m : Machine) : Prop where
  machine : m = s'.machine setting frame (s'.values ++ rest) levels
  frame : s'.frame = s.frame
  values : ∃ results, s'.values = results ++ s.values.drop type.params.length ∧
    results.length = type.results.length

/-- Nothing but the store and the records has changed. -/
structure Kept (setting : Setting) (frame : Option Frame) (operands : List Value)
    (levels : List Level) (s s' : State) (m : Machine) : Prop where
  machine : m = s'.machine setting frame operands levels
  frame : s'.frame = s.frame
  values : s'.values = s.values

/-- The levels under the body of a function: the label and the frame of the function,
and what the caller has left. -/
def bodyLevels (frame : Frame) (operands : List Value) (levels : List Level) : List Level :=
  ⟨.label ⟨frame.arity, []⟩, []⟩ :: ⟨.frame frame.arity frame.locals.size, operands⟩ :: levels

/-! ## What is shown by induction -/

def SequenceAgrees (fuel : Nat) : Prop :=
  ∀ (setting : Setting) (levels : List Level) (is : List Instruction) (s : State),
    Agree (Meets setting levels) (Stranded setting [] levels)
      (sequence fuel setting (targets levels) is s)
      (Run.sequence fuel is (s.machine setting s.frame s.values levels))

def InstructionAgrees (fuel : Nat) : Prop :=
  ∀ (setting : Setting) (levels : List Level) (i : Instruction) (s : State),
    Agree (Meets setting levels) (Stranded setting [] levels)
      (instruction fuel setting (targets levels) i s)
      (Run.instruction fuel i (s.machine setting s.frame s.values levels))

def ConstructAgrees (fuel : Nat) : Prop :=
  ∀ (setting : Setting) (levels : List Level) (label : Label) (type : FuncType)
    (body : List Instruction) (loop : Bool) (s : State),
    (loop = true → label.continuation = body) →
    Agree (Meets setting levels) (Stranded setting [] levels)
      (construct fuel setting (targets levels) label.arity type body loop s)
      (Run.construct fuel label type body loop (s.machine setting s.frame s.values levels))

def CallAgrees (fuel : Nat) : Prop :=
  ∀ (setting : Setting) (addr : Addr) (s : State) (frame : Option Frame) (rest : List Value)
    (levels : List Level),
    (∀ f, s.store.funcs[addr]? = some f → rest = [] ∨ f.type.params.length ≤ s.values.length) →
    Agree
      (fun _ s' _ m' => ∃ f, s.store.funcs[addr]? = some f ∧
        Completed setting frame rest levels f.type s s' m')
      (Stranded setting rest levels) (call fuel setting addr s)
      (Run.call fuel addr (s.machine setting frame (s.values ++ rest) levels))

def FunctionAgrees (fuel : Nat) : Prop :=
  ∀ (setting : Setting) (f : FuncInst) (s : State) (frame : Option Frame) (rest : List Value)
    (levels : List Level), rest = [] ∨ f.type.params.length ≤ s.values.length →
    Agree (fun _ s' _ m' => Completed setting frame rest levels f.type s s' m')
      (Stranded setting rest levels) (function fuel setting f s)
      (Run.function fuel f (s.machine setting frame (s.values ++ rest) levels))

def CodeAgrees (fuel : Nat) : Prop :=
  ∀ (setting : Setting) (f : Code) (s : State) (frame : Option Frame) (rest : List Value)
    (levels : List Level), rest = [] ∨ f.type.params.length ≤ s.values.length →
    Agree (fun _ s' _ m' => Completed setting frame rest levels f.type s s' m')
      (Stranded setting rest levels) (code fuel setting f s)
      (Run.code fuel f (s.machine setting frame (s.values ++ rest) levels))

def FramedAgrees (fuel : Nat) : Prop :=
  ∀ (setting : Setting) (frame : Frame) (body : List Instruction) (s : State)
    (caller : Option Frame) (operands : List Value) (levels : List Level),
    Agree
      (fun out s' exit m' => ∃ inner innermost,
        Meets setting (bodyLevels frame operands levels) out.1 inner exit innermost ∧
          out.2 = inner.values ∧ s' = { inner with values := s.values, frame := s.frame } ∧
          m' = { innermost with frame := caller })
      (Stranded setting operands levels) (framed fuel setting frame body s)
      (Run.framed fuel frame body (s.machine setting caller operands levels))

def HostAgrees (fuel : Nat) : Prop :=
  ∀ (setting : Setting) (program : HostProgram) (s : State) (frame : Option Frame)
    (operands : List Value) (levels : List Level),
    Agree (fun a s' b m' => a = b ∧ Kept setting frame operands levels s s' m')
      (fun _ _ _ => False) (host fuel setting program s)
      (Run.host fuel program (s.machine setting frame operands levels))

def AttemptAgrees (fuel : Nat) : Prop :=
  ∀ (setting : Setting) (addr : Addr) (args : List (Option Value)) (s : State)
    (frame : Option Frame) (operands : List Value) (levels : List Level),
    Agree (fun a s' b m' => a = b ∧ Kept setting frame operands levels s s' m')
      (fun _ _ _ => False) (attempt fuel setting addr args s)
      (Run.attempt fuel addr args (s.machine setting frame operands levels))

def InvokeAgrees (fuel : Nat) : Prop :=
  ∀ (setting : Setting) (addr : Addr) (args : List (Option Value)) (s : State)
    (frame : Option Frame) (operands : List Value) (levels : List Level),
    Agree
      (fun a s' b m' => a = b ∧ Kept setting frame operands levels s s' m' ∧
        ∃ f, s.store.funcs[addr]? = some f ∧ a.length = f.type.results.length)
      (fun stop s' m' => Kept setting frame operands levels s s' m' ∧
        ((∃ t, stop = .trap t) ∨ s' = s))
      (invoke fuel setting addr args s)
      (Run.invoke fuel addr args (s.machine setting frame operands levels))

variable {fuel : Nat}

/-! ## Code -/

theorem sequenceAgrees_succ (instructionAgrees : InstructionAgrees fuel)
    (sequenceAgrees : SequenceAgrees fuel) : SequenceAgrees (fuel + 1) := by
  intro setting levels is s
  cases is with
  | nil =>
      rw [sequence, Run.sequence]
      exact .ok .normal
  | cons i rest =>
      rw [sequence, Run.sequence]
      refine .bind (instructionAgrees setting levels i s) ?_
      rintro signal s' exit m' meets
      cases meets with
      | normal => exact sequenceAgrees setting levels rest s'
      | returned known count => exact .ok (.returned known count)
      | branch known count => exact .ok (.branch known count)

/-- The machine enters a construct by putting its label under the parameters. -/
theorem enter_machine {setting : Setting} {levels : List Level} {s : State} (label : Label)
    (args : List Value) :
    Run.modifyStack (fun stack => (stack.mark (.label label)).pushValues args)
        (s.machine setting s.frame s.values levels) =
      .ok () (({ s with values := args.reverse } : State).machine setting s.frame args.reverse
        (⟨.label label, s.values⟩ :: levels)) := by
  have entered : ((Stack.of s.values levels).mark (.label label)).pushValues args =
      .of args.reverse (⟨.label label, s.values⟩ :: levels) :=
    Stack.eq_of (List.append_nil _) rfl
  refine congrArg (EStateM.Result.ok ()) ?_
  simp only [State.machine, entered]

theorem constructAgrees_succ (sequenceAgrees : SequenceAgrees fuel)
    (constructAgrees : ConstructAgrees fuel) : ConstructAgrees (fuel + 1) := by
  intro setting levels label type body loop s continues
  rw [construct, Run.construct]
  refine .bind take_bare_agree ?_
  rintro args s _ _ ⟨rfl, rfl⟩
  refine .right (b := s.values.length + Level.count levels) rfl ?_
  refine .right (enter_machine label args) ?_
  refine .bind (apart_agree ((sequenceAgrees setting (⟨.label label, s.values⟩ :: levels) body
    { s with values := args.reverse }).mono (fun _ _ _ _ meets => meets)
      fun _ _ _ stranded => stranded.pop.bare)) ?_
  rintro ⟨signal, left⟩ s' exit m' ⟨inner, meets, rfl, rfl⟩
  cases meets with
  | normal =>
      refine .bind (handBack_agree (s := { inner with values := s.values }) label inner.values) ?_
      rintro _ s' _ _ rfl
      exact .ok .normal
  | returned known count => exact .ok (.returned known count)
  | @branch _ place depth values known count =>
      cases depth with
      | succ depth => exact .ok (.branch known count)
      | zero =>
          cases known
          cases loop with
          | false => exact .ok .normal
          | true =>
              rw [continues rfl]
              exact constructAgrees setting levels label type body true
                { inner with values := values.reverse ++ s.values } continues

theorem instruction_of_not_transfers {setting : Setting} {reach : Targets} {i : Instruction}
    (stays : i.opcode ∉ Run.transfers) :
    instruction (fuel + 1) setting reach i = (do
      step (Step.plain setting.options i)
      return .normal) := by
  rw [instruction]
  split
  case h_10 => rfl
  all_goals
    next is =>
      rw [is] at stays
      exact absurd (by decide) stays

/-- A call in a body, whose caller has nothing at hand but the values of the body. -/
theorem call_agree (callAgrees : CallAgrees fuel) {setting : Setting} {levels : List Level}
    {addr : Addr} {s : State} :
    Agree (Meets setting levels) (Stranded setting [] levels)
      ((do call fuel setting addr; return .normal : Eval Signal) s)
      ((do Run.call fuel addr; return .normal : Run Exit)
        (s.machine setting s.frame s.values levels)) := by
  have called := callAgrees setting addr s s.frame [] levels fun _ _ => .inl rfl
  rw [List.append_nil] at called
  refine .bind called ?_
  rintro _ s' _ _ ⟨f, -, rfl, frame, -⟩
  rw [List.append_nil, ← frame]
  exact .ok .normal

theorem instructionAgrees_succ (constructAgrees : ConstructAgrees fuel)
    (callAgrees : CallAgrees fuel) : InstructionAgrees (fuel + 1) := by
  intro setting levels i s
  by_cases stays : i.opcode ∉ Run.transfers
  · rw [instruction_of_not_transfers stays, Run.instruction_of_not_transfers stays fuel]
    refine .right rfl (.bind (step_agree (Step.plain setting.options i)) ?_)
    rintro _ s' _ _ ⟨-, rfl⟩
    exact .ok .normal
  rw [not_not] at stays
  simp only [Run.transfers, List.mem_cons, List.not_mem_nil, or_false] at stays
  rcases stays with is | is | is | is | is | is | is | is | is
  all_goals rw [instruction, Run.instruction, is]
  case inl =>
    refine .bind (blockSignature_agree i) ?_
    rintro type s' _ _ ⟨rfl, rfl, rfl⟩
    exact constructAgrees setting levels ⟨type.results.length, []⟩ type i.body false s'
      fun again => absurd again Bool.false_ne_true
  case inr.inl =>
    refine .bind (blockSignature_agree i) ?_
    rintro type s' _ _ ⟨rfl, rfl, rfl⟩
    exact constructAgrees setting levels ⟨type.params.length, i.body⟩ type i.body true s' fun _ => rfl
  case inr.inr.inl =>
    refine .bind (step_agree Step.popI32) ?_
    rintro condition s _ _ ⟨rfl, rfl⟩
    refine .bind (blockSignature_agree i) ?_
    rintro type s' _ _ ⟨rfl, rfl, rfl⟩
    exact constructAgrees setting levels ⟨type.results.length, []⟩ type _ false s'
      fun again => absurd again Bool.false_ne_true
  case inr.inr.inr.inl => exact branch_agree i.branchLabel.toNat
  case inr.inr.inr.inr.inl =>
    refine .bind (step_agree Step.popI32) ?_
    rintro condition s _ _ ⟨rfl, rfl⟩
    by_cases falls : condition = 0
    · rw [if_pos falls, if_pos falls]
      exact .ok .normal
    · rw [if_neg falls, if_neg falls]
      exact branch_agree i.branchLabel.toNat
  case inr.inr.inr.inr.inr.inl =>
    refine .bind (step_agree Step.popI32) ?_
    rintro index s _ _ ⟨rfl, rfl⟩
    exact branch_agree (Run.branchTarget i.branchTable.1 i.branchTable.2 index).toNat
  case inr.inr.inr.inr.inr.inr.inl => exact leave_agree
  case inr.inr.inr.inr.inr.inr.inr.inl =>
    refine .bind (step_agree (Run.callTarget i.callIndex)) ?_
    rintro addr s _ _ ⟨rfl, rfl⟩
    exact call_agree callAgrees
  case inr.inr.inr.inr.inr.inr.inr.inr =>
    refine .bind (step_agree (Run.indirectTarget i.callIndirect.1 i.callIndirect.2)) ?_
    rintro addr s _ _ ⟨rfl, rfl⟩
    exact call_agree callAgrees

/-! ## Functions -/

theorem framedAgrees_succ (sequenceAgrees : SequenceAgrees fuel) : FramedAgrees (fuel + 1) := by
  intro setting frame body s caller operands levels
  have marked : ((Stack.of operands levels).mark (.frame frame.arity frame.locals.size)).mark
      (.label ⟨frame.arity, []⟩) = .of [] (bodyLevels frame operands levels) :=
    Stack.eq_of rfl rfl
  have inside := (sequenceAgrees setting (bodyLevels frame operands levels) body
    { s with values := [], frame := some frame }).mono (fun _ _ _ _ meets => meets)
    fun _ _ _ stranded => stranded.pop.pop
  have ran : Agree _ _ (within (some frame) [] _ s) _ := within_agree inside
  have reach : targets (bodyLevels frame operands levels) = ⟨[frame.arity], some frame.arity⟩ := rfl
  rw [framed, Run.framed, ← reach]
  simp only [State.machine, marked] at ran ⊢
  generalize within (some frame) [] _ s = outcome, Run.sequence fuel body _ = outcome' at ran ⊢
  cases ran with
  | ok good =>
      obtain ⟨inner, meets, left, same⟩ := good
      exact .ok ⟨inner, _, meets, left, same, rfl⟩
  | stop known =>
      refine .stop fun fueled => ?_
      obtain ⟨⟨trap, _, operands', upper, rfl, rests⟩, -⟩ := known fueled
      exact ⟨trap, caller, operands', upper, rfl, rests⟩

/-- The results of a function in the place of its arguments. -/
theorem Completed.of_results {setting : Setting} {frame : Option Frame} {rest results : List Value}
    {levels : List Level} {type : FuncType} {s : State} (inner : State)
    (count : results.length = type.results.length) :
    Completed setting frame rest levels type s
      { inner with values := results ++ s.values.drop type.params.length, frame := s.frame }
      (inner.machine setting frame (results ++ (s.values.drop type.params.length ++ rest))
        levels) where
  machine := by
    rw [← List.append_assoc]
    rfl
  frame := rfl
  values := ⟨results, rfl, count⟩

/-- Unwinding a body that was fallen through hands back what the interpreter hands back. -/
theorem unwind_body (setting : Setting) (caller : Option Frame) (s : State) (frame : Frame)
    (left operands : List Value) (levels : List Level) (n : Nat) :
    Run.unwind (operands.length + Level.count levels) n
        (s.machine setting caller left (bodyLevels frame operands levels)) =
      if n ≤ left.length then .ok () (s.machine setting caller (left.take n ++ operands) levels)
      else .error (.trap .operands)
        (s.machine setting caller left (bodyLevels frame operands levels)) :=
  unwind_machine (l := ⟨.frame frame.arity frame.locals.size, operands⟩)
    [⟨.label ⟨frame.arity, []⟩, []⟩] n rfl

/-- The same behind a branch to the label of the function, which has left exactly the
results above the frame. -/
theorem unwind_carried (setting : Setting) (caller : Option Frame) (s : State)
    (values operands : List Value) (levels : List Level) (arity locals : Nat) :
    Run.unwind (operands.length + Level.count levels) values.length
        (s.machine setting caller (values.reverse ++ [])
          (⟨.frame arity locals, operands⟩ :: levels)) =
      .ok () (s.machine setting caller (values.reverse ++ operands) levels) := by
  have all : values.length = values.reverse.length := List.length_reverse.symm
  rw [List.append_nil]
  refine (unwind_machine (l := ⟨.frame arity locals, operands⟩) [] values.length rfl).trans ?_
  rw [all, if_pos (Nat.le_refl _), List.take_length]

theorem codeAgrees_succ (framedAgrees : FramedAgrees fuel) : CodeAgrees (fuel + 1) := by
  intro setting f s frame rest levels enough
  rw [code, Run.code]
  refine .bind (take_agree enough) ?_
  rintro args _ _ _ ⟨rfl, -, -, rfl, rfl⟩
  cases Run.localZeros f.locals with
  | error t => exact .stop fun _ => ⟨⟨t, rfl⟩, frame, _, levels, rfl, .here _⟩
  | ok zeros =>
      let operands := s.values.drop f.type.params.length ++ rest
      let own : Frame := ⟨f.home, (args ++ zeros).toArray, f.type.results.length⟩
      refine .right (b := operands.length + Level.count levels) rfl ?_
      refine .bind ((framedAgrees setting own f.body
        { s with values := s.values.drop f.type.params.length } frame operands levels).mono
        (fun _ _ _ _ good => good) fun _ _ _ stranded => stranded.drop _) ?_
      rintro ⟨signal, left⟩ s' exit m' ⟨inner, _, meets, rfl, rfl, rfl⟩
      cases meets with
      | normal =>
          refine Eq.mpr (congrArg (Agree _ _ _) (unwind_body setting frame inner own inner.values
            operands levels f.type.results.length)) ?_
          simp only [handBack, topmost]
          by_cases enough : f.type.results.length ≤ inner.values.length
          · simp only [if_pos enough]
            refine .ok ?_
            rw [List.reverse_reverse]
            exact .of_results inner (List.length_take_of_le enough)
          · simp only [if_neg enough]
            exact .stop fun _ => (Stranded.here.pop.pop).drop _
      | @returned _ place values known count =>
          cases known
          exact .ok (.of_results inner (List.length_reverse.trans count))
      | @branch _ place depth values known count =>
          cases depth with
          | succ depth => cases known
          | zero =>
              cases known
              have unwound := unwind_carried setting frame inner values operands levels
                own.arity own.locals.size
              rw [count] at unwound
              refine Eq.mpr (congrArg (Agree _ _ _) unwound) ?_
              exact .ok (.of_results inner (List.length_reverse.trans count))

/-- Results of given types are as many as there are types. -/
theorem length_of_matchTypes {results : List (Option Value)} {types : List ValType}
    (matched : Value.matchTypes results types = true) :
    (results.filterMap id).length = types.length := by
  fun_induction Value.matchTypes results types with
  | case1 => rfl
  | case2 v vs t ts ih =>
      rw [Bool.and_eq_true] at matched
      simpa using ih matched.2
  | case3 => cases matched

theorem functionAgrees_succ (codeAgrees : CodeAgrees fuel) (hostAgrees : HostAgrees fuel) :
    FunctionAgrees (fuel + 1) := by
  intro setting f s frame rest levels enough
  cases f with
  | code f =>
      rw [function, Run.function]
      exact codeAgrees setting f s frame rest levels enough
  | host f =>
      rw [function, Run.function]
      refine .bind (take_agree enough) ?_
      rintro args _ _ _ ⟨rfl, -, -, rfl, rfl⟩
      refine .bind ((hostAgrees setting (f.behaviour args) _ frame _ levels).mono
        (fun _ _ _ _ good => good) fun _ _ _ => False.elim) ?_
      rintro outcome s' _ _ ⟨rfl, rfl, sameFrame, sameValues⟩
      cases outcome with
      | error fault => exact .stop fun _ => ⟨⟨_, rfl⟩, frame, _, levels, rfl, .here _⟩
      | ok results =>
          by_cases matched : Value.matchTypes results f.type.results = true
          · simp only [if_pos matched]
            obtain ⟨values, ownFrame, store, records⟩ := s'
            cases sameFrame
            cases sameValues
            exact .ok (.of_results ⟨_, _, store, records⟩
              (List.length_reverse.trans (length_of_matchTypes matched)))
          · simp only [if_neg matched]
            exact .stop fun _ => ⟨⟨_, rfl⟩, frame, _, levels, rfl, .here _⟩

theorem callAgrees_succ (functionAgrees : FunctionAgrees fuel) : CallAgrees (fuel + 1) := by
  intro setting addr s frame rest levels enough
  rw [call, Run.call]
  simp only [State.machine, bind, EStateM.bind, get_eq]
  cases held : s.store.funcs[addr]? with
  | none => exact .stop fun _ => ⟨⟨_, rfl⟩, frame, _, levels, rfl, .here _⟩
  | some f =>
      by_cases deep : setting.options.callLimit ≤ setting.depth
      · simp only [deep, if_true]
        exact .stop fun _ => ⟨⟨_, rfl⟩, frame, _, levels, rfl, .here _⟩
      · have ran := functionAgrees setting.deeper f s frame rest levels (enough f held)
        simp only [deep, if_false, Setting.deeper]
        simp only [State.machine, Setting.deeper] at ran
        generalize function fuel _ f s = outcome, Run.function fuel f _ = outcome' at ran ⊢
        cases ran with
        | ok completed =>
            obtain ⟨rfl, sameFrame, values⟩ := completed
            exact .ok ⟨f, rfl, rfl, sameFrame, values⟩
        | stop known =>
            refine .stop fun fueled => ?_
            obtain ⟨trap, frame, operands, upper, rfl, rests⟩ := known fueled
            exact ⟨trap, frame, operands, upper, rfl, rests⟩

/-! ## Host functions and invocations -/

/-- A step of a host function that leaves the values and the frame alone is followed by steps
that agree. -/
theorem HostAgrees.goesOn (hostAgrees : HostAgrees fuel) (next : HostProgram) {s : State}
    (s₁ : State) (sameFrame : s₁.frame = s.frame) (sameValues : s₁.values = s.values) :
    Agree (fun a s' b m' => a = b ∧ Kept setting frame operands levels s s' m')
      (fun _ _ _ => False) (host fuel setting next s₁)
      (Run.host fuel next (s₁.machine setting frame operands levels)) := by
  refine (hostAgrees setting next s₁ frame operands levels).mono ?_ fun _ _ _ => id
  rintro _ s' _ _ ⟨same, kept⟩
  exact ⟨same, kept.machine, kept.frame.trans sameFrame, kept.values.trans sameValues⟩

theorem hostAgrees_succ (hostAgrees : HostAgrees fuel) (attemptAgrees : AttemptAgrees fuel) :
    HostAgrees (fuel + 1) := by
  intro setting program s frame operands levels
  cases program with
  | finish results =>
      rw [host, Run.host]
      exact .ok ⟨rfl, rfl, rfl, rfl⟩
  | fail fault =>
      rw [host, Run.host]
      exact .ok ⟨rfl, rfl, rfl, rfl⟩
  | record entry next =>
      rw [host, Run.host]
      exact hostAgrees.goesOn next { s with records := entry :: s.records } rfl rfl
  | keep name values next =>
      rw [host, Run.host]
      exact hostAgrees.goesOn next { s with store := s.store.keep name values } rfl rfl
  | retrieve name next =>
      rw [host, Run.host]
      exact hostAgrees.goesOn (next (s.store.retrieve name)) s rfl rfl
  | view inst memory request next =>
      rw [host, Run.host]
      exact hostAgrees.goesOn (next (s.store.useView setting.names inst memory request).1)
        { s with store := (s.store.useView setting.names inst memory request).2 } rfl rfl
  | callExport inst func args next =>
      rw [host, Run.host]
      refine .bind (namedExport_agree inst func) ?_
      rintro found s' _ _ ⟨rfl, rfl, rfl⟩
      cases found with
      | error fault => exact hostAgrees.goesOn (next (.error fault)) s' rfl rfl
      | ok addr =>
          refine .bind (attemptAgrees setting addr (args.map some) s' frame operands levels) ?_
          rintro outcome s'' _ _ ⟨rfl, rfl, sameFrame, sameValues⟩
          exact hostAgrees.goesOn (next outcome) s'' sameFrame sameValues

theorem attemptAgrees_succ (invokeAgrees : InvokeAgrees fuel) : AttemptAgrees (fuel + 1) := by
  intro setting addr args s frame operands levels
  have ran := invokeAgrees setting addr args s frame operands levels
  rw [attempt, Run.attempt]
  beta_reduce
  generalize invoke fuel setting addr args s = outcome, Run.invoke fuel addr args _ = outcome'
    at ran ⊢
  cases ran with
  | ok good => exact .ok ⟨congrArg _ good.1, good.2.1⟩
  | @stop stop _ _ known =>
      cases stop with
      | trap t => exact .ok ⟨rfl, (known (by simp)).1⟩
      | refused r => exact .ok ⟨rfl, (known (by simp)).1⟩
      | outOfFuel => exact .outOfFuel

theorem invokeAgrees_succ (callAgrees : CallAgrees fuel) : InvokeAgrees (fuel + 1) := by
  intro setting addr args s frame operands levels
  rw [invoke, Run.invoke]
  simp only [State.machine, bind, EStateM.bind, get_eq]
  cases held : s.store.funcs[addr]? with
  | none => exact .stop fun _ => ⟨⟨rfl, rfl, rfl⟩, .inr rfl⟩
  | some f =>
      simp only [Option.map_some]
      by_cases matched : Value.matchTypes args f.type.params = true
      · have args' := length_of_matchTypes matched
        have enough : ∀ g, s.store.funcs[addr]? = some g → operands = [] ∨
            g.type.params.length ≤ (args.filterMap id).reverse.length := by
          intro g held'
          cases held.symm.trans held'
          exact .inr (Nat.le_of_eq (List.length_reverse.trans args').symm)
        have ran := within_agree (s := s) (callAgrees setting addr
          { s with values := (args.filterMap id).reverse, frame := none } frame operands levels
          enough)
        have loaded : (Stack.of operands levels).pushValues (args.filterMap id) =
            .of ((args.filterMap id).reverse ++ operands) levels := rfl
        simp only [matched, Bool.not_true, Bool.false_eq_true, if_false, loaded, EStateM.bind]
        simp only [State.machine] at ran
        generalize within none _ _ s = outcome, Run.call fuel addr _ = outcome' at ran ⊢
        cases ran with
        | ok good =>
            obtain ⟨inner, ⟨g, held', rfl, -, results, values, count⟩, same, rfl⟩ := good
            cases held.symm.trans held'
            have none_left : (args.filterMap id).reverse.drop f.type.params.length = [] :=
              List.drop_eq_nil_of_le (Nat.le_of_eq (List.length_reverse.trans args'))
            rw [none_left, List.append_nil] at values
            have popped : (Stack.of (inner.values ++ operands) levels).popValues?
                f.type.results.length = some (results.reverse, .of operands levels) := by
              rw [← count, values]
              exact Stack.popValues?_append rfl
            simp only [State.machine, popped, if_true, same, topmost]
            rw [values, ← count, if_pos (Nat.le_refl _), List.take_length]
            exact .ok ⟨rfl, ⟨rfl, rfl, rfl⟩, f, rfl, List.length_reverse.trans count⟩
        | @stop stop s' _ known =>
            cases stop with
            | outOfFuel => exact .outOfFuel
            | refused r =>
                obtain ⟨⟨⟨_, trap⟩, -⟩, -⟩ := known (by simp)
                cases trap
            | trap t =>
                obtain ⟨⟨-, frame', operands', upper, rfl, rests⟩, sameValues, sameFrame⟩ :=
                  known (by simp)
                have back := rests.truncate_eq (s := .of operands levels)
                refine .stop fun _ => ⟨⟨?_, sameFrame, sameValues⟩, .inl ⟨t, rfl⟩⟩
                simp only [State.machine, back]
      · rw [Bool.not_eq_true] at matched
        simp only [matched, Bool.not_false, if_true]
        exact .stop fun _ => ⟨⟨rfl, rfl, rfl⟩, .inr rfl⟩

/-! ## All of them -/

/-- The machine agrees with the interpreter in everything with an amount of fuel. -/
structure AllAgree (fuel : Nat) : Prop where
  sequence : SequenceAgrees fuel
  instruction : InstructionAgrees fuel
  construct : ConstructAgrees fuel
  call : CallAgrees fuel
  function : FunctionAgrees fuel
  code : CodeAgrees fuel
  framed : FramedAgrees fuel
  host : HostAgrees fuel
  attempt : AttemptAgrees fuel
  invoke : InvokeAgrees fuel

/-- Without fuel neither side does anything. -/
theorem AllAgree.zero : AllAgree 0 where
  sequence _ _ _ _ := by
    rw [Reference.sequence, Run.sequence]
    exact .outOfFuel
  instruction _ _ _ _ := by
    rw [Reference.instruction, Run.instruction]
    exact .outOfFuel
  construct _ _ _ _ _ _ _ _ := by
    rw [Reference.construct, Run.construct]
    exact .outOfFuel
  call _ _ _ _ _ _ _ := by
    rw [Reference.call, Run.call]
    exact .outOfFuel
  function _ _ _ _ _ _ _ := by
    rw [Reference.function, Run.function]
    exact .outOfFuel
  code _ _ _ _ _ _ _ := by
    rw [Reference.code, Run.code]
    exact .outOfFuel
  framed _ _ _ _ _ _ _ := by
    rw [Reference.framed, Run.framed]
    exact .outOfFuel
  host _ _ _ _ _ _ := by
    rw [Reference.host, Run.host]
    exact .outOfFuel
  attempt _ _ _ _ _ _ _ := by
    rw [Reference.attempt, Run.attempt]
    exact .outOfFuel
  invoke _ _ _ _ _ _ _ := by
    rw [Reference.invoke, Run.invoke]
    exact .outOfFuel

theorem allAgree (fuel : Nat) : AllAgree fuel := by
  induction fuel with
  | zero => exact .zero
  | succ fuel ih =>
      exact {
        sequence := sequenceAgrees_succ ih.instruction ih.sequence
        instruction := instructionAgrees_succ ih.construct ih.call
        construct := constructAgrees_succ ih.sequence ih.construct
        call := callAgrees_succ ih.function
        function := functionAgrees_succ ih.code ih.host
        code := codeAgrees_succ ih.framed
        framed := framedAgrees_succ ih.sequence
        host := hostAgrees_succ ih.host ih.attempt
        attempt := attemptAgrees_succ ih.invoke
        invoke := invokeAgrees_succ ih.call }

/-! ## Invocations -/

/-- The setting in which a machine invokes a function. -/
def Setting.ofMachine (m : Machine) : Setting := ⟨m.options, m.names, m.depth⟩

/-- What an invocation finds in a machine: the store and the records, but nothing of
the stack and no frame. -/
def State.ofMachine (m : Machine) : State := ⟨[], none, m.store, m.records⟩

/-- Every machine is the machine of a state. -/
theorem machine_eq (values : List Value) (frame : Option Frame) (m : Machine) :
    (⟨values, frame, m.store, m.records⟩ : State).machine (.ofMachine m) m.frame m.stack.operands
      m.stack.levels = m := by
  obtain ⟨store, stack, own, depth, options, names, records⟩ := m
  have same : stack = .of stack.operands stack.levels := Stack.eq_of rfl rfl
  simp only [State.machine, Setting.ofMachine, ← same]

/-- A machine with the store and the records of a state. -/
def State.restore (s : State) (m : Machine) : Machine :=
  { m with store := s.store, records := s.records }

/-- An invocation by a machine agrees with one that knows nothing of its stack. -/
theorem invoke_agree (m : Machine) (fuel : Nat) (addr : Addr) (args : List (Option Value)) :
    Agree
      (fun a s b m' => a = b ∧ m' = s.restore m ∧
        ∃ f, m.store.funcs[addr]? = some f ∧ a.length = f.type.results.length)
      (fun stop s m' => m' = s.restore m ∧ ((∃ t, stop = .trap t) ∨ m' = m))
      (invoke fuel (.ofMachine m) addr args (.ofMachine m)) (Run.invoke fuel addr args m) := by
  have ran := (allAgree fuel).invoke (.ofMachine m) addr args (.ofMachine m) m.frame
    m.stack.operands m.stack.levels
  have after (s : State) : s.machine (.ofMachine m) m.frame m.stack.operands m.stack.levels =
      s.restore m := machine_eq [] none (s.restore m)
  rw [after] at ran
  refine ran.mono ?_ ?_
  · rintro a s' b m' ⟨same, kept, length⟩
    exact ⟨same, kept.machine.trans (after s'), length⟩
  · rintro stop s' m' ⟨kept, cause⟩
    refine ⟨kept.machine.trans (after s'), cause.imp_right fun same => ?_⟩
    rw [kept.machine, after, same]
    rfl

/-- An invocation does what the reference interpreter does, whatever the body of the
function is and whatever is on the stack of the machine: it gives the same values or
stops for the same reason, it leaves the same store and records, and the rest of the
machine is as before. It uses up its fuel exactly when the interpreter does. -/
theorem invoke_refines (m : Machine) (fuel : Nat) (addr : Addr) (args : List (Option Value)) :
    match invoke fuel (.ofMachine m) addr args (.ofMachine m) with
    | .ok results s => Run.invoke fuel addr args m = .ok results (s.restore m)
    | .error .outOfFuel _ => ∃ m', Run.invoke fuel addr args m = .error .outOfFuel m'
    | .error stop s => Run.invoke fuel addr args m = .error stop (s.restore m) := by
  have agree := invoke_agree m fuel addr args
  generalize invoke fuel _ addr args _ = outcome, Run.invoke fuel addr args m = outcome' at agree ⊢
  cases agree with
  | ok good =>
      obtain ⟨rfl, rfl, -⟩ := good
      rfl
  | @stop stop s m' known =>
      cases stop with
      | outOfFuel => exact ⟨m', rfl⟩
      | trap t => rw [(known nofun).1]
      | refused r => rw [(known nofun).1]

end WasmMachine.Reference
