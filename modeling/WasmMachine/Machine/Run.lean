/-
# Running code

The functions here call one another and need not come to an end, since loops and
recursion need not.  They take an explicit amount of fuel, which bounds how deep
they nest; using it up is an outcome of its own and never a result of the
program.
-/

import WasmMachine.Machine.Basic

namespace WasmMachine.Run

mutual

/-- Run instructions one after the other until one does not fall through. -/
def sequence : Nat → List Instruction → Run Exit
  | 0, _ => throw .outOfFuel
  | _ + 1, [] => return .normal
  | fuel + 1, i :: rest => do
      match ← instruction fuel i with
      | .normal => sequence fuel rest
      | exit => return exit

/-- Run one instruction. -/
def instruction : Nat → Instruction → Run Exit
  | 0, _ => throw .outOfFuel
  | fuel + 1, i => do
      match i.opcode with
      | Opcode.block =>
          let type ← blockSignature i
          construct fuel ⟨type.results.length, []⟩ type i.body false
      | Opcode.loop =>
          let type ← blockSignature i
          construct fuel ⟨type.params.length, i.body⟩ type i.body true
      | Opcode.ifElse =>
          let condition ← step Step.popI32
          let type ← blockSignature i
          construct fuel ⟨type.results.length, []⟩ type
            (if condition = 0 then i.orElse else i.body) false
      | Opcode.br => branch i.branchLabel.toNat
      | Opcode.brIf =>
          let condition ← step Step.popI32
          if condition = 0 then return .normal
          branch i.branchLabel.toNat
      | Opcode.brTable =>
          let index ← step Step.popI32
          branch (branchTarget i.branchTable.1 i.branchTable.2 index).toNat
      | Opcode.ret => leave
      | Opcode.call =>
          let addr ← step (callTarget i.callIndex)
          call fuel addr
          return .normal
      | Opcode.callIndirect =>
          let addr ← step (indirectTarget i.callIndirect.1 i.callIndirect.2)
          call fuel addr
          return .normal
      | _ =>
          step (Step.plain (← get).options i)
          return .normal

/-- Run a body under a fresh label, with the parameters of the construct above
it. A branch to the label ends a block and starts a loop over; branches to labels
further out pass through, one level shallower. -/
def construct : Nat → Label → FuncType → List Instruction → Bool → Run Exit
  | 0, _, _, _, _ => throw .outOfFuel
  | fuel + 1, label, type, body, loop => do
      let args ← popValues type.params.length
      let position ← height
      modifyStack fun s => (s.mark (.label label)).pushValues args
      match ← sequence fuel body with
      | .normal =>
          endLabel position type.results.length
          return .normal
      | .returned => return .returned
      | .branch (depth + 1) => return .branch depth
      | .branch 0 =>
          if loop then construct fuel label type label.continuation true
          else return .normal

/-- Call a function of the store with its arguments on the stack. The number of
active calls is bounded. -/
def call : Nat → Addr → Run Unit
  | 0, _ => throw .outOfFuel
  | fuel + 1, addr => fun m =>
      match m.store.funcs[addr]? with
      | none => .error (.trap (.undefinedFunction addr)) m
      | some f =>
          if m.options.callLimit ≤ m.depth then .error (.trap .callStackExhausted) m
          else
            match function fuel f { m with depth := m.depth + 1 } with
            | .ok _ m => .ok () { m with depth := m.depth - 1 }
            | .error stop m => .error stop { m with depth := m.depth - 1 }

/-- Run a function of either sort. -/
def function : Nat → FuncInst → Run Unit
  | 0, _ => throw .outOfFuel
  | fuel + 1, .code f => code fuel f
  | fuel + 1, .host f => do
      let args ← popValues f.type.params.length
      match ← host fuel (f.behaviour args) with
      | .error fault => trap (.hostFailed f.name fault)
      | .ok results =>
          if Value.matchTypes results f.type.results then
            modifyStack fun s => s.pushValues (results.filterMap id)
          else trap (.hostResults f.name results f.type.results)

/-- Run the body of a module's function in a frame of its own. The frame of the
caller is back in place afterwards, whatever happens. -/
def code : Nat → Code → Run Unit
  | 0, _ => throw .outOfFuel
  | fuel + 1, f => do
      let args ← popValues f.type.params.length
      match localZeros f.locals with
      | .error t => trap t
      | .ok zeros =>
          let arity := f.type.results.length
          let locals := (args ++ zeros).toArray
          let position ← height
          let exit ← framed fuel ⟨f.home, locals, arity⟩ f.body
          match exit with
          | .returned => return ()
          | .branch (_ + 1) => trap .escapingBranch
          | .normal | .branch 0 => unwind position arity

/-- Run a body under a frame and the label of the function. -/
def framed : Nat → Frame → List Instruction → Run Exit
  | 0, _, _ => throw .outOfFuel
  | fuel + 1, frame, body => fun m =>
      match m with
      | ⟨store, stack, caller, depth, options, names, records⟩ =>
          let marked :=
            (stack.mark (.frame frame.arity frame.locals.size)).mark (.label ⟨frame.arity, []⟩)
          match sequence fuel body ⟨store, marked, some frame, depth, options, names, records⟩ with
          | .ok exit m => .ok exit { m with frame := caller }
          | .error stop m => .error stop { m with frame := caller }

/-- Carry out the steps of a host function. -/
def host : Nat → HostProgram → Run (Except Fault (List (Option Value)))
  | 0, _ => throw .outOfFuel
  | _ + 1, .finish results => return .ok results
  | _ + 1, .fail fault => return .error fault
  | fuel + 1, .record entry next => do
      modify fun m => { m with records := entry :: m.records }
      host fuel next
  | fuel + 1, .keep name values next => do
      modify fun m => { m with store := m.store.keep name values }
      host fuel next
  | fuel + 1, .retrieve name next => do host fuel (next ((← get).store.retrieve name))
  | fuel + 1, .view inst memory request next => do
      let answer ← useView inst memory request
      host fuel (next answer)
  | fuel + 1, .callExport inst func args next => do
      match ← namedExport inst func with
      | .error fault => host fuel (next (.error fault))
      | .ok addr =>
          let outcome ← attempt fuel addr (args.map some)
          host fuel (next outcome)

/-- Invoke a function and turn a failure into a fault that can be handled. -/
def attempt : Nat → Addr → List (Option Value) → Run (Except Fault (List Value))
  | 0, _, _ => throw .outOfFuel
  | fuel + 1, addr, args => fun m =>
      match invoke fuel addr args m with
      | .ok results m => .ok (.ok results) m
      | .error (.trap t) m => .ok (.error t.toFault) m
      | .error (.refused r) m => .ok (.error r.toFault) m
      | .error .outOfFuel m => .error .outOfFuel m

/-- Call a function with arguments and give its results. Arguments that do not
match the parameters are refused. A trap removes everything that the call left on
the stack. -/
def invoke : Nat → Addr → List (Option Value) → Run (List Value)
  | 0, _, _ => throw .outOfFuel
  | fuel + 1, addr, args => fun m =>
      match (m.store.funcs[addr]?).map (·.type) with
      | none => .error (.refused .address) m
      | some type =>
          if !Value.matchTypes args type.params then
            .error (.refused (.arguments args type.params)) m
          else
            match m with
            | ⟨store, stack, caller, depth, options, names, records⟩ =>
                let base := stack.length
                let loaded := stack.pushValues (args.filterMap id)
                match call fuel addr ⟨store, loaded, caller, depth, options, names, records⟩ with
                | .error (.trap t) m =>
                    .error (.trap t) { m with stack := m.stack.truncate base, frame := caller }
                | .error stop m => .error stop m
                | .ok _ m =>
                    match m.stack.popValues? type.results.length with
                    | some (results, stack) =>
                        if stack.length = base then
                          .ok results { m with stack := stack, frame := caller }
                        else
                          .error (.trap .operands)
                            { m with stack := stack.truncate base, frame := caller }
                    | none =>
                        .error (.trap .operands)
                          { m with stack := m.stack.truncate base, frame := caller }

end

/-- Fuel that no run gets to the end of in any time that matters. -/
def ampleFuel : Nat := 2 ^ 62

end WasmMachine.Run
