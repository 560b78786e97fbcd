/-
# Instantiating modules

A module becomes an instance in stages: its imports are resolved, its definitions
are added to the store, its exports are bound, its active segments are copied in
order, and its start function runs.  Only then is the instance given a name.  A
failure leaves behind what earlier stages have done to the store, and no name.
-/

import WasmMachine.Link.Constant
import WasmMachine.Link.Resolve
import WasmMachine.Machine.Run

namespace WasmMachine

/-- Why linking stopped. -/
inductive LinkStop
  | failed (e : LinkError)
  | outOfFuel

/-- An action of the linker. The linker it leaves behind is known also when it
stops. -/
abbrev Link := EStateM LinkStop Linker

namespace Link

/-- Stop with a failure. -/
def fail {α : Type} (e : LinkError) : Link α := throw (.failed e)

/-- Take the result of a check. -/
def lift {α : Type} : Except LinkError α → Link α
  | .ok a => return a
  | .error e => fail e

/-- Take the value of a constant expression. -/
def liftConstant {α : Type} : Except ConstantProblem α → Link α
  | .ok a => return a
  | .error problem => fail (.constant problem)

/-- Change the store. -/
def modifyStore (f : Store → Store) : Link Unit :=
  modify fun l => { l with machine := { l.machine with store := f l.machine.store } }

/-- Add something to the store. -/
def add {α : Type} (f : Store → α × Store) : Link α :=
  modifyGet fun l =>
    match f l.machine.store with
    | (a, store) => (a, { l with machine := { l.machine with store := store } })

/-- The store. -/
def store : Link Store := do return (← get).machine.store

/-- The instance that is being made. -/
def inst (id : InstanceId) : Link ModuleInstance := do
  return (← store).instances[id]?.getD {}

/-- Change the instance that is being made. -/
def modifyInst (id : InstanceId) (f : ModuleInstance → ModuleInstance) : Link Unit :=
  modifyStore (·.modifyInstance id f)

/-- Do something for each item of a list, with its index. -/
def forEach {α : Type} (items : List α) (action : Nat → α → Link Unit) : Link Unit :=
  items.zipIdx.forM fun (item, i) => action i item

/-- Add the functions. -/
def addFuncs (id : InstanceId) (m : Module) : Link Unit := do
  if m.funcs.length ≠ m.code.length then fail (.bodyCount m.funcs.length m.code.length)
  forEach (m.funcs.zip m.code) fun i (typeIndex, body) => do
    match m.types[typeIndex.toNat]? with
    | none => fail (.funcType i typeIndex)
    | some type =>
        let addr ← add (·.addFunc (.code ⟨some id, type, body.localTypes, body.body⟩))
        modifyInst id (·.addAddress ⟨.func, addr⟩)

/-- Add the tables and the memories. -/
def addTablesAndMemories (id : InstanceId) (m : Module) : Link Unit := do
  m.tables.forM fun type => do
    let addr ← add (·.addTable type)
    modifyInst id (·.addAddress ⟨.table, addr⟩)
  m.memories.forM fun type => do
    let addr ← add (·.addMemory type)
    modifyInst id (·.addAddress ⟨.memory, addr⟩)

/-- Add the globals one by one, each with its first value. -/
def addGlobals (id : InstanceId) (m : Module) : Link Unit :=
  forEach m.globals fun i global => do
    let v ← liftConstant ((← store).constant (← inst id) global.init)
    if v.type ≠ global.type.type then fail (.globalInit i v.type global.type.type)
    let addr ← add (·.addGlobal global.type v)
    modifyInst id (·.addAddress ⟨.global, addr⟩)

/-- The references of an element segment. Expressions, if there are any, stand
before listed functions. -/
def elementRefs (id : InstanceId) (e : Element) : Link (List Ref) := do
  if e.exprList.isEmpty then
    e.funcList.mapM fun func => do
      match (← inst id).funcs[func.toNat]? with
      | some addr => return .func addr
      | none => fail (.elementFunc func)
  else
    e.exprList.mapM fun expr => do
      match ← liftConstant ((← store).constant (← inst id) expr) with
      | .ref r => return r
      | v => fail (.elementEntry v.type)

/-- Add the segments. -/
def addSegments (id : InstanceId) (m : Module) : Link Unit := do
  m.elements.forM fun e => do
    let refs ← elementRefs id e
    let addr ← add (·.addElem e.type refs)
    modifyInst id fun inst => { inst with elems := inst.elems.push addr }
  m.data.forM fun d => do
    let addr ← add (·.addData d.init)
    modifyInst id fun inst => { inst with datas := inst.datas.push addr }

/-- Bind the exports. -/
def bindExports (id : InstanceId) (m : Module) : Link Unit :=
  m.exports.forM fun e => do
    match ((← inst id).addresses e.kind)[e.index.toNat]? with
    | some addr => modifyInst id (·.addExport e.name ⟨e.kind, addr⟩)
    | none => fail (.exportIndex e.name e.kind e.index)

/-- Copy an active element segment into its table and drop it; a declarative one
is only dropped. -/
def applyElement (id : InstanceId) (i : Nat) (e : Element) : Link Unit := do
  let owner ← inst id
  let segment := owner.elems[i]?.getD 0
  match e.mode with
  | .active =>
      match owner.tables[e.table.toNat]? with
      | none => fail (.elementTable i e.table)
      | some table =>
          let offset ← liftConstant ((← store).offset owner e.offset)
          let refs := (((← store).elems[segment]?).map (·.refs)).getD []
          let size := (((← store).tables[table]?).map (·.elems.size)).getD 0
          if size < offset.toNat + refs.length then fail (.elementBounds i e.table offset)
          modifyStore fun s => (s.writeTable table offset.toNat refs).dropElem segment
  | .declarative => modifyStore (·.dropElem segment)
  | _ => return ()

/-- Copy an active data segment into its memory and drop it. -/
def applyData (id : InstanceId) (i : Nat) (d : DataSegment) : Link Unit := do
  if d.mode = .active then
    let owner ← inst id
    let segment := owner.datas[i]?.getD 0
    match owner.memories[d.memory.toNat]? with
    | none => fail (.dataMemory i d.memory)
    | some memory =>
        let offset ← liftConstant ((← store).offset owner d.offset)
        let bytes := (((← store).datas[segment]?).map (·.data)).getD []
        let size := (((← store).memories[memory]?).map (·.bytes.size)).getD 0
        if size < offset.toNat + bytes.length then fail (.dataBounds i d.memory offset)
        modifyStore fun s => (s.writeMemory memory offset.toNat bytes).dropData segment

/-- Run an action of the machine. -/
def onMachine {α : Type} (action : Run α) (failure : Stop → LinkStop) : Link α := fun l =>
  match l with
  | ⟨machine, registry⟩ =>
      match action machine with
      | .ok a machine => .ok a ⟨machine, registry⟩
      | .error stop machine => .error (failure stop) ⟨machine, registry⟩

/-- Run the start function, if there is one. -/
def runStart (fuel : Nat) (id : InstanceId) (m : Module) : Link Unit := do
  if let some index := m.start then
    match (← inst id).funcs[index.toNat]? with
    | none => fail (.startIndex index)
    | some addr =>
        discard <| onMachine (Run.invoke fuel addr []) fun stop =>
          match stop.fault? with
          | some fault => .failed (.startFailed index fault)
          | none => .outOfFuel

/-- Instantiate a module. A name that is not empty makes the instance importable,
once its start function has returned. -/
def instantiate (fuel : Nat) (m : Module) (name : String) : Link InstanceId := do
  let externs ← lift ((← get).resolve m)
  let fresh : ModuleInstance := { name := name, types := m.types }
  let id ← add (·.addInstance (externs.foldl .addAddress fresh))
  addFuncs id m
  addTablesAndMemories id m
  addGlobals id m
  addSegments id m
  bindExports id m
  forEach m.elements (applyElement id)
  forEach m.data (applyData id)
  runStart fuel id m
  if name ≠ "" then modify (·.register name id)
  return id

end Link

end WasmMachine
