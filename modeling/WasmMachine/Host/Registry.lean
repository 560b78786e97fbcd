/-
# The registry of host functions

Host functions are registered under a namespace and a name; a later registration
of the same pair replaces the earlier one.  A namespace that has changed since it
was last bound is pending.
-/

import WasmMachine.Host.Handler
import WasmMachine.Text.SnakeCase

namespace WasmMachine

/-- The registered functions, each with its namespace, and the pending
namespaces. -/
structure HostRegistry where
  functions : List (String × HostFunction) := []
  pending : List String := []

/-- Handlers that are registered together, by the names of methods. -/
structure HostObject where
  ns : String
  methods : List (String × Handler)

/-- Sort names, dropping none. -/
def sortNames (names : List String) : List String := names.mergeSort fun a b => !(b < a)

namespace HostRegistry

variable (r : HostRegistry)

/-- Register a function. -/
def put (ns : String) (f : HostFunction) : HostRegistry where
  functions := (r.functions.filter fun old => !(old.1 == ns && old.2.name == f.name)) ++ [(ns, f)]
  pending := if r.pending.contains ns then r.pending else r.pending ++ [ns]

/-- Register a handler. -/
def registerHandler (ns name : String) (h : Handler) : Except Fault HostRegistry :=
  if ns = "" then .error (.invalidInput Phase.link "namespace cannot be empty")
  else if name = "" then .error (.invalidInput Phase.link "function name cannot be empty")
  else do return r.put ns (← h.adapt name)

/-- Register a function with a signature of its own. It may lack a behaviour,
which shows only when its namespace is bound. -/
def registerFunction (ns name : String) (type : FuncType) (behaviour : Option HostBehaviour) :
    Except Fault HostRegistry :=
  if ns = "" ∨ name = "" then
    .error (.invalidInput Phase.link "namespace and function name are required")
  else .ok (r.put ns ⟨name, type, behaviour⟩)

/-- Register handlers one after the other, up to the first that is refused. -/
def registerAll (ns : String) : List (String × Handler) → HostRegistry → HostRegistry × Option Fault
  | [], r => (r, none)
  | (name, h) :: rest, r =>
      match h.adapt name with
      | .ok f => registerAll ns rest (r.put ns f)
      | .error fault => (r, some fault)

/-- Register the methods of an object in the order of their names, each under its
name in snake case. What was registered before a refused method stays. -/
def registerObject (object : HostObject) : HostRegistry × Option Fault :=
  if object.ns = "" then (r, some (.invalidInput Phase.link "namespace cannot be empty"))
  else
    let methods := object.methods.mergeSort fun a b => !(b.1 < a.1)
    registerAll object.ns (methods.map fun (name, h) => (Text.snakeCase name, h)) r

/-- The namespaces, in order. -/
def namespaces : List String := sortNames (r.functions.map (·.1)).eraseDups

/-- The function that is registered under a namespace and a name. -/
def lookup? (ns name : String) : Option HostFunction :=
  (r.functions.find? fun f => f.1 == ns && f.2.name == name).map (·.2)

/-- The functions of a namespace, in the order of their names. -/
def functionsOf (ns : String) : List HostFunction :=
  ((r.functions.filter fun f => f.1 == ns).map (·.2)).mergeSort fun a b => !(b.name < a.name)

/-- The pending namespaces, in order. -/
def pendingNamespaces : List String := sortNames r.pending

/-- Take a namespace off the pending ones. -/
def bound (ns : String) : HostRegistry := { r with pending := r.pending.filter (· != ns) }

end HostRegistry

end WasmMachine
