/-
# A reference interpreter

The plain meaning of structured code.  A body runs on a list of values of its own,
and nothing on that list says where a construct or a call began.  A construct hands
its body exactly its parameters and takes from what the body leaves exactly its
results.  A transfer of control is a signal that carries its values: each construct
passes it outward, one level shallower, until the construct it names absorbs it.

Plain instructions, calls to functions outside the code and the limit on active calls
are those of the machine.  Fuel is spent where the machine spends it, so that the two
can be compared run by run, those that do not come to an end included.
-/

import WasmMachine.Machine.Run

namespace WasmMachine.Reference

/-- What stays the same while a function runs: the options, the names under which
host functions find instances, and the number of active calls. -/
structure Setting where
  options : Options
  names : List (String × InstanceId)
  depth : Nat

/-- The setting of a function that is called in a setting. -/
def Setting.deeper (setting : Setting) : Setting := { setting with depth := setting.depth + 1 }

/-- Where control can be transferred: how many values each label in reach takes, the
innermost one first, and how many a return gives. Code outside functions cannot
return. -/
structure Targets where
  labels : List Nat
  results : Option Nat

/-- The targets of a body under one more label. -/
def Targets.inside (targets : Targets) (arity : Nat) : Targets :=
  { targets with labels := arity :: targets.labels }

/-- The values of the running body, topmost first, with the frame, the store and what
host functions recorded. -/
structure State where
  values : List Value
  frame : Option Frame
  store : Store
  records : List HostRecord

/-- How a sequence of instructions ended. A transfer of control carries values, in the
order they were pushed. -/
inductive Signal
  | normal
  | returned (values : List Value)
  | branch (depth : Nat) (values : List Value)

/-- An action of the interpreter. -/
abbrev Eval := EStateM Stop State

section

variable {α : Type}

/-- Stop with a trap. -/
def trap (t : Trap) : Eval α := throw (.trap t)

/-- Run a step on the values of the running body. -/
def step (action : Step α) : Eval α := fun s =>
  match action ⟨s.values, s.frame, s.store⟩ with
  | .ok a ⟨values, frame, store⟩ => .ok a ⟨values, frame, store, s.records⟩
  | .error t ⟨values, frame, store⟩ => .error (.trap t) ⟨values, frame, store, s.records⟩

/-- Take the topmost `n` values, in the order they were pushed. -/
def take (n : Nat) : Eval (List Value) := fun s =>
  if n ≤ s.values.length then
    .ok (s.values.take n).reverse { s with values := s.values.drop n }
  else .error (.trap .operands) s

/-- Put values on top, the last one topmost. -/
def put (values : List Value) : Eval Unit :=
  modify fun s => { s with values := values.reverse ++ s.values }

/-- The topmost `n` of the values that a body left, in the order they were pushed. -/
def topmost (n : Nat) (left : List Value) : Eval (List Value) :=
  if n ≤ left.length then return (left.take n).reverse else trap .operands

/-- Put the topmost `n` of the values that a body left on the list outside. -/
def handBack (n : Nat) (left : List Value) : Eval Unit := do put (← topmost n left)

/-- Run an action on a fresh list of values and give what it left there. -/
def apart (values : List Value) (action : Eval α) : Eval (α × List Value) := fun s =>
  match action { s with values := values.reverse } with
  | .ok a s' => .ok (a, s'.values) { s' with values := s.values }
  | .error stop s' => .error stop { s' with values := s.values }

/-- Run an action on a fresh list of values and in another frame. -/
def within (frame : Option Frame) (values : List Value) (action : Eval α) :
    Eval (α × List Value) := fun s =>
  match action { s with values := values.reverse, frame := frame } with
  | .ok a s' => .ok (a, s'.values) { s' with values := s.values, frame := s.frame }
  | .error stop s' => .error stop { s' with values := s.values, frame := s.frame }

end

/-- Signal a branch to the label at a depth. -/
def branch (targets : Targets) (depth : Nat) : Eval Signal := do
  match targets.labels[depth]? with
  | none => trap (.unknownLabel depth)
  | some arity => return .branch depth (← take arity)

/-- Signal a return. -/
def leave (targets : Targets) : Eval Signal := do
  match targets.results with
  | none => trap .noFrame
  | some arity => return .returned (← take arity)

/-- The signature of a block among the types of the running code. -/
def blockSignature (i : Instruction) : Eval FuncType := do
  match i.blockType? with
  | none => trap .missingBlockType
  | some type =>
      let s ← get
      let inst := (s.frame.bind (·.home)).bind fun id => s.store.instances[id]?
      match BlockType.signature? ((inst.map (·.types)).getD []) type with
      | some signature => return signature
      | none => trap (.invalidBlockType type)

/-- The address of the function that a named instance exports under a name. -/
def namedExport (setting : Setting) (inst func : String) : Eval (Except Fault Addr) := do
  match setting.names.lookup inst with
  | none => return .error (.plain ("no instance " ++ inst))
  | some id =>
      match ((← get).store.instances[id]?).bind (·.exportedFunc? func) with
      | none => return .error (.notFound Phase.runtime "exported function" func)
      | some addr => return .ok addr

/-- Use a view of the memory that a named instance exports. -/
def useView (setting : Setting) (inst memory : String) (request : ViewRequest) :
    Eval (Option ViewAnswer) :=
  modifyGet fun s =>
    let (answer, store) := s.store.useView setting.names inst memory request
    (answer, { s with store := store })

mutual

/-- Run instructions one after the other until one gives a signal. -/
def sequence : Nat → Setting → Targets → List Instruction → Eval Signal
  | 0, _, _, _ => throw .outOfFuel
  | _ + 1, _, _, [] => return .normal
  | fuel + 1, setting, targets, i :: rest => do
      match ← instruction fuel setting targets i with
      | .normal => sequence fuel setting targets rest
      | signal => return signal

/-- Run one instruction. -/
def instruction : Nat → Setting → Targets → Instruction → Eval Signal
  | 0, _, _, _ => throw .outOfFuel
  | fuel + 1, setting, targets, i => do
      match i.opcode with
      | Opcode.block =>
          let type ← blockSignature i
          construct fuel setting targets type.results.length type i.body false
      | Opcode.loop =>
          let type ← blockSignature i
          construct fuel setting targets type.params.length type i.body true
      | Opcode.ifElse =>
          let condition ← step Step.popI32
          let type ← blockSignature i
          construct fuel setting targets type.results.length type
            (if condition = 0 then i.orElse else i.body) false
      | Opcode.br => branch targets i.branchLabel.toNat
      | Opcode.brIf =>
          let condition ← step Step.popI32
          if condition = 0 then return .normal
          branch targets i.branchLabel.toNat
      | Opcode.brTable =>
          let index ← step Step.popI32
          branch targets (Run.branchTarget i.branchTable.1 i.branchTable.2 index).toNat
      | Opcode.ret => leave targets
      | Opcode.call =>
          let addr ← step (Run.callTarget i.callIndex)
          call fuel setting addr
          return .normal
      | Opcode.callIndirect =>
          let addr ← step (Run.indirectTarget i.callIndirect.1 i.callIndirect.2)
          call fuel setting addr
          return .normal
      | _ =>
          step (Step.plain setting.options i)
          return .normal

/-- Run a body on the parameters of its construct alone. The construct absorbs a
branch to itself: a loop starts over with the values, any other construct ends with
them. -/
def construct : Nat → Setting → Targets → Nat → FuncType → List Instruction → Bool → Eval Signal
  | 0, _, _, _, _, _, _ => throw .outOfFuel
  | fuel + 1, setting, targets, arity, type, body, loop => do
      let args ← take type.params.length
      let (signal, left) ← apart args (sequence fuel setting (targets.inside arity) body)
      match signal with
      | .normal =>
          handBack type.results.length left
          return .normal
      | .returned values => return .returned values
      | .branch (depth + 1) values => return .branch depth values
      | .branch 0 values =>
          put values
          if loop then construct fuel setting targets arity type body true
          else return .normal

/-- Call a function of the store with its arguments on the list of values. The number
of active calls is bounded. -/
def call : Nat → Setting → Addr → Eval Unit
  | 0, _, _ => throw .outOfFuel
  | fuel + 1, setting, addr => do
      match (← get).store.funcs[addr]? with
      | none => trap (.undefinedFunction addr)
      | some f =>
          if setting.options.callLimit ≤ setting.depth then trap .callStackExhausted
          else function fuel setting.deeper f

/-- Run a function of either sort. -/
def function : Nat → Setting → FuncInst → Eval Unit
  | 0, _, _ => throw .outOfFuel
  | fuel + 1, setting, .code f => code fuel setting f
  | fuel + 1, setting, .host f => do
      let args ← take f.type.params.length
      match ← host fuel setting (f.behaviour args) with
      | .error fault => trap (.hostFailed f.name fault)
      | .ok results =>
          if Value.matchTypes results f.type.results then put (results.filterMap id)
          else trap (.hostResults f.name results f.type.results)

/-- Run the body of a module's function. Its results are what the body left on top,
what a return carried, or what a branch to the label of the function carried. -/
def code : Nat → Setting → Code → Eval Unit
  | 0, _, _ => throw .outOfFuel
  | fuel + 1, setting, f => do
      let args ← take f.type.params.length
      match Run.localZeros f.locals with
      | .error t => trap t
      | .ok zeros =>
          let arity := f.type.results.length
          let (signal, left) ← framed fuel setting ⟨f.home, (args ++ zeros).toArray, arity⟩ f.body
          match signal with
          | .normal => handBack arity left
          | .returned values => put values
          | .branch 0 values => put values
          | .branch (_ + 1) _ => trap .escapingBranch

/-- Run a body in a frame of its own, on no values. -/
def framed : Nat → Setting → Frame → List Instruction → Eval (Signal × List Value)
  | 0, _, _, _ => throw .outOfFuel
  | fuel + 1, setting, frame, body =>
      within (some frame) [] (sequence fuel setting ⟨[frame.arity], some frame.arity⟩ body)

/-- Carry out the steps of a host function. -/
def host : Nat → Setting → HostProgram → Eval (Except Fault (List (Option Value)))
  | 0, _, _ => throw .outOfFuel
  | _ + 1, _, .finish results => return .ok results
  | _ + 1, _, .fail fault => return .error fault
  | fuel + 1, setting, .record entry next => do
      modify fun s => { s with records := entry :: s.records }
      host fuel setting next
  | fuel + 1, setting, .keep name values next => do
      modify fun s => { s with store := s.store.keep name values }
      host fuel setting next
  | fuel + 1, setting, .retrieve name next => do
      host fuel setting (next ((← get).store.retrieve name))
  | fuel + 1, setting, .view inst memory request next => do
      let answer ← useView setting inst memory request
      host fuel setting (next answer)
  | fuel + 1, setting, .callExport inst func args next => do
      match ← namedExport setting inst func with
      | .error fault => host fuel setting (next (.error fault))
      | .ok addr =>
          let outcome ← attempt fuel setting addr (args.map some)
          host fuel setting (next outcome)

/-- Invoke a function and turn a failure into a fault that can be handled. -/
def attempt : Nat → Setting → Addr → List (Option Value) → Eval (Except Fault (List Value))
  | 0, _, _, _ => throw .outOfFuel
  | fuel + 1, setting, addr, args => fun s =>
      match invoke fuel setting addr args s with
      | .ok results s => .ok (.ok results) s
      | .error (.trap t) s => .ok (.error t.toFault) s
      | .error (.refused r) s => .ok (.error r.toFault) s
      | .error .outOfFuel s => .error .outOfFuel s

/-- Call a function on its arguments alone and give its results. Arguments that do
not match the parameters are refused. -/
def invoke : Nat → Setting → Addr → List (Option Value) → Eval (List Value)
  | 0, _, _, _ => throw .outOfFuel
  | fuel + 1, setting, addr, args => do
      match ((← get).store.funcs[addr]?).map (·.type) with
      | none => throw (.refused .address)
      | some type =>
          if !Value.matchTypes args type.params then
            throw (.refused (.arguments args type.params))
          else
            let (_, left) ← within none (args.filterMap id) (call fuel setting addr)
            topmost type.results.length left

end

end WasmMachine.Reference
