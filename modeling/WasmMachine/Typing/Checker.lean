/-
# The type checker for function bodies

The checker walks a body once with a stack of operand types and a stack of the
constructs around the current instruction.  A construct remembers how many
operands there were when it was entered; the operands below that height belong
to the constructs around it.  After an instruction that never falls through, the
construct is marked: from there to its end, taking an operand at its height
conjures up an operand of unknown type, which matches every type.

Both stacks are lists, the innermost or topmost entry first.
-/

import WasmMachine.Typing.Signature

namespace WasmMachine.Typing

/-- A construct around the current instruction. -/
structure Construct where
  loop : Bool
  params : List ValType
  results : List ValType
  height : Nat
  unreachable : Bool
  deriving DecidableEq, Repr

/-- The operands that a branch to a construct carries: a loop starts over, any
other construct ends. -/
def Construct.labelTypes (c : Construct) : List ValType :=
  if c.loop then c.params else c.results

/-- The two stacks of the checker. -/
structure Checker where
  operands : List ValType
  constructs : List Construct
  deriving DecidableEq, Repr

/-- A step of the checker: it moves on to another state or stops at a violation. -/
abbrev Check := StateT Checker (Except Violation)

namespace Check

/-- Stop. -/
def refuse {α : Type} (v : Violation) : Check α := throw v

/-- The innermost construct. -/
def current : Check Construct := do
  match (← get).constructs with
  | c :: _ => return c
  | [] => refuse (.outside .construct 0)

/-- Put operands on the stack, the last one on top. -/
def push (types : List ValType) : Check Unit :=
  modify fun s => { s with operands := types.reverse ++ s.operands }

/-- Take the topmost operand of the innermost construct. -/
def pop (op : UInt8) : Check ValType := do
  let c ← current
  let s ← get
  if s.operands.length = c.height then
    if c.unreachable then return .unknown
    refuse (.emptyStack op)
  match s.operands with
  | type :: rest =>
      set { s with operands := rest }
      return type
  | [] => refuse (.outside .operand 0)

/-- Take an operand of the wanted type. -/
def popExpect (op : UInt8) (want : ValType) : Check ValType := do
  let got ← pop op
  if got = .unknown then return want
  if want ≠ .unknown ∧ got ≠ want then refuse (.operandType op want got)
  return got

/-- Take operands of the wanted types, the last one first. -/
def popAll (op : UInt8) (types : List ValType) : Check Unit :=
  types.reverse.forM fun type => discard (popExpect op type)

/-- Take and give operands as a signature says. -/
def applySignature (op : UInt8) (type : FuncType) : Check Unit := do
  popAll op type.params
  push type.results

/-- Enter a construct; its parameters become its first operands. -/
def enter (loop : Bool) (type : FuncType) : Check Unit := do
  modify fun s =>
    { s with
      constructs := ⟨loop, type.params, type.results, s.operands.length, false⟩ :: s.constructs }
  push type.params

/-- Leave a construct; nothing but its results may be left of its operands. -/
def leave : Check Unit := do
  let c ← current
  popAll Opcode.close c.results
  let s ← get
  if s.operands.length ≠ c.height then
    refuse (.leftOver Opcode.close (s.operands.length - c.height))
  set { s with constructs := s.constructs.tail }

/-- Drop the operands of the innermost construct and mark it. -/
def setUnreachable : Check Unit := do
  let c ← current
  modify fun s =>
    { operands := s.operands.drop (s.operands.length - c.height),
      constructs := { c with unreachable := true } :: s.constructs.tail }

/-- The construct that a label names. -/
def label (depth : UInt32) : Check Construct := do
  match (← get).constructs[depth.toNat]? with
  | some c => return c
  | none => refuse (.unknownLabel depth)

/-- The signature of a block; a missing block type counts as the first type of
the module. -/
def blockSignature (ctx : Context) (i : Instruction) : Check FuncType :=
  let type := i.blockType?.getD 0
  match BlockType.signature? ctx.types type with
  | some signature => return signature
  | none => refuse (.unknownIndex .type type.toUInt32)

/-- A branch table: each label is checked against the same operands, and only the
last one consumes them. -/
def branchTable (op : UInt8) (labels : List UInt32) (fallback : UInt32) : Check Unit := do
  discard (popExpect op .i32)
  let last ← label fallback
  let arity := last.labelTypes.length
  labels.forM fun depth => do
    let target ← label depth
    if target.labelTypes.length ≠ arity then
      refuse (.labelArity op depth target.labelTypes.length arity)
    let saved := (← get).operands
    popAll op target.labelTypes
    modify fun s => { s with operands := saved }
  popAll op last.labelTypes
  setUnreachable

/-- A choice between two operands of one type, which is not written down. -/
def select (op : UInt8) : Check Unit := do
  discard (popExpect op .i32)
  let upper ← pop op
  let lower ← pop op
  if upper.isRef || lower.isRef then refuse (.selectReference op)
  if upper = .unknown then push [lower]
  else if lower = .unknown ∨ upper = lower then push [upper]
  else refuse (.selectDiffers op lower upper)

/-- An instruction without nested instructions. -/
def plain (ctx : Context) (i : Instruction) : Check Unit := do
  let op := i.opcode
  match op with
  | Opcode.unreachable => setUnreachable
  | Opcode.br =>
      let target ← label i.branchLabel
      popAll op target.labelTypes
      setUnreachable
  | Opcode.brIf =>
      let target ← label i.branchLabel
      discard (popExpect op .i32)
      applySignature op ⟨target.labelTypes, target.labelTypes⟩
  | Opcode.brTable => branchTable op i.branchTable.1 i.branchTable.2
  | Opcode.ret =>
      popAll op ctx.results
      setUnreachable
  | Opcode.drop => discard (pop op)
  | Opcode.select => select op
  | Opcode.refIsNull =>
      let type ← pop op
      if type ≠ .unknown ∧ !type.isRef then refuse (.notReference op type)
      push [.i32]
  | _ => applySignature op (← ctx.signature i)

mutual

/-- Check one instruction. A construct takes its parameters, runs over its body as
a construct of its own, and gives its results; both arms of a choice are such
constructs, and an absent arm is an empty one. -/
def instruction (ctx : Context) : Instruction → Check Unit
  | .node op immediate body orElse => do
      let i := Instruction.node op immediate body orElse
      match op with
      | Opcode.block | Opcode.loop =>
          let type ← blockSignature ctx i
          popAll op type.params
          enter (op == Opcode.loop) type
          sequence ctx body
          leave
          push type.results
      | Opcode.ifElse =>
          let type ← blockSignature ctx i
          discard (popExpect op .i32)
          popAll op type.params
          enter false type
          sequence ctx body
          leave
          push type.params
          popAll Opcode.otherwise type.params
          enter false type
          sequence ctx orElse
          leave
          push type.results
      | _ => plain ctx i

/-- Check instructions one after the other. -/
def sequence (ctx : Context) : List Instruction → Check Unit
  | [] => return ()
  | i :: rest => do
      instruction ctx i
      sequence ctx rest

end

/-- A body as the construct that is left by a branch to the function itself. -/
def body (ctx : Context) (instructions : List Instruction) : Check Unit := do
  enter false ⟨[], ctx.results⟩
  sequence ctx instructions
  leave

end Check

/-- Check a function body in the context of its function. The first violation
ends the check. -/
def checkBody (ctx : Context) (instructions : List Instruction) : Except Violation Unit :=
  (Check.body ctx instructions).run' ⟨[], []⟩

end WasmMachine.Typing
