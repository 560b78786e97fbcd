/-
# Embedding the machine

An embedding ties the parts together: a linker with its machine, and the registry
of host functions.  Modules are loaded, which decodes and checks them, and then
instantiated; pending host functions are bound just before.  Exported functions
and globals are reached through an instance.
-/

import WasmMachine.Host.Registry
import WasmMachine.Link.HostModule
import WasmMachine.Module.Decode
import WasmMachine.Typing.Module

namespace WasmMachine

/-- A linker and a registry of host functions, with the options they were made
with. -/
structure Embedding where
  linker : Linker
  hosts : HostRegistry := {}
  options : Options := {}

/-- Why an action of an embedding stopped. -/
inductive Failure
  | fault (f : Fault)
  | outOfFuel

/-- An action of an embedding. The embedding it leaves behind is known also when
it stops. -/
abbrev Embed := EStateM Failure Embedding

/-- A stop of the machine as a failure. -/
def Stop.failure (s : Stop) : Failure :=
  match s.fault? with
  | some fault => .fault fault
  | none => .outOfFuel

/-- A stop of the linker as a failure. -/
def LinkStop.failure : LinkStop → Failure
  | .failed e => .fault e.toFault
  | .outOfFuel => .outOfFuel

namespace Embedding

/-- A fresh embedding. -/
def new (options : Options) : Embedding :=
  { linker := { machine := { options := options } }, options := options }

/-- Decode a module and check it. -/
def load (bytes : List UInt8) : Except Fault Module :=
  match Module.decode bytes with
  | .error e =>
      let fault := e.toFault
      .error (if fault.inPhase Phase.parse then fault else .parseFailed "module" (some fault))
  | .ok m => do
      m.validate
      return m

/-- The signature of an exported function of a module. -/
def signature? (m : Module) (name : String) : Option FuncType :=
  (m.exports.filter fun e => e.name == name && e.kind == .func).findSome? fun e =>
    m.funcType? e.index

/-- An instance. -/
def instance? (e : Embedding) (id : InstanceId) : Option ModuleInstance := e.linker.instance? id

/-- The store. -/
def store (e : Embedding) : Store := e.linker.machine.store

/-- The value of an exported global. -/
def global? (e : Embedding) (id : InstanceId) (name : String) : Option Value := do
  let found ← (← e.instance? id).export? name
  if found.kind = .global then (e.store.globals[found.addr]?).map (·.value) else none

/-- The address of an exported memory. -/
def memory? (e : Embedding) (id : InstanceId) (name : String) : Option Addr := do
  (← e.instance? id).exportedMemory? name

end Embedding

namespace Embed

/-- Run an action of the linker. -/
def onLinker {α : Type} (action : Link α) : Embed α := fun e =>
  match e with
  | ⟨linker, hosts, options⟩ =>
      match action linker with
      | .ok a linker => .ok a ⟨linker, hosts, options⟩
      | .error stop linker => .error stop.failure ⟨linker, hosts, options⟩

/-- Run an action of the machine. -/
def onMachine {α : Type} (action : Run α) : Embed α := fun e =>
  match e with
  | ⟨⟨machine, registry⟩, hosts, options⟩ =>
      match action machine with
      | .ok a machine => .ok a ⟨⟨machine, registry⟩, hosts, options⟩
      | .error stop machine => .error stop.failure ⟨⟨machine, registry⟩, hosts, options⟩

/-- Stop with a fault. -/
def fail {α : Type} (f : Fault) : Embed α := throw (.fault f)

/-- Bind namespaces one after the other: make a module of each and take it off the
pending ones. The first that fails ends the pass and stays pending. -/
def bindNamespaces : List String → Embed Unit
  | [] => return ()
  | ns :: rest => do
      let functions := (← get).hosts.functionsOf ns
      let defs := functions.map fun f => HostDef.mk f.name (.func f.type f.behaviour)
      discard (onLinker (Link.hostModule ns defs))
      modify fun e => { e with hosts := e.hosts.bound ns }
      bindNamespaces rest

/-- Bind every pending namespace, in order. -/
def bindHosts : Embed Unit := do bindNamespaces (← get).hosts.pendingNamespaces

/-- Instantiate a loaded module. -/
def instantiate (fuel : Nat) (m : Module) (name : String) : Embed InstanceId := do
  bindHosts
  onLinker (Link.instantiate fuel m name)

/-- Call an exported function of an instance. -/
def call (fuel : Nat) (id : InstanceId) (name : String) (args : List (Option Value)) :
    Embed (List Value) := do
  match ((← get).instance? id).bind (·.exportedFunc? name) with
  | none => fail (.notFound Phase.runtime "exported function" name)
  | some addr => onMachine (Run.invoke fuel addr args)

/-- Let host functions call an instance by a name. -/
def nameInstance (name : String) (id : InstanceId) : Embed Unit :=
  onMachine (modify fun m =>
    { m with names := (name, id) :: m.names.filter fun old => old.1 != name })

/-- Take what host functions recorded, oldest first. -/
def takeRecords : Embed (List HostRecord) :=
  onMachine (modifyGet fun m => (m.records.reverse, { m with records := [] }))

end Embed

end WasmMachine
