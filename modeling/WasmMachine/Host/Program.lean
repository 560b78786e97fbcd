/-
# What a host function does

A function of the embedder is described by the steps it takes and not by an
opaque procedure: it may record something, keep values for a later call and retrieve
them, use a view of an exported memory, and call an exported function of an
instance that the embedder has a name for; in the end it gives results or fails.
The machine carries the steps out.
-/

import WasmMachine.Fault
import WasmMachine.Value

namespace WasmMachine

/-- Something that a host function recorded: a name and values. -/
structure HostRecord where
  name : String
  values : List Value
  deriving DecidableEq, Repr

/-- What a host function asks of a view of a memory. -/
inductive ViewRequest
  | size
  | read (offset length : UInt32)
  | write (offset : UInt32) (bytes : List UInt8)
  | grow (pages : UInt32)

/-- What a view answers: its size in bytes and in pages, the bytes that were read, that
bytes were written, the old number of pages if the memory could grow, or why it refuses. -/
inductive ViewAnswer
  | size (bytes pages : UInt32)
  | bytes (found : List UInt8)
  | written
  | grown (old : Option Nat)
  | refused (fault : Fault)

/-- The steps of a host function. Results may be missing, since nothing holds a
host function to its signature but the check of its results. What a host function
keeps under a name replaces what was kept there. A view that does not exist gives no
answer. -/
inductive HostProgram
  | finish (results : List (Option Value))
  | fail (fault : Fault)
  | record (entry : HostRecord) (next : HostProgram)
  | keep (name : String) (values : List Value) (next : HostProgram)
  | retrieve (name : String) (next : List Value → HostProgram)
  | view (inst memory : String) (request : ViewRequest) (next : Option ViewAnswer → HostProgram)
  | callExport (inst func : String) (args : List Value)
      (next : Except Fault (List Value) → HostProgram)

/-- How a host function responds to its arguments. -/
abbrev HostBehaviour := List Value → HostProgram

namespace HostBehaviour

/-- Gives the same results whatever the arguments are. -/
def const (results : List (Option Value)) : HostBehaviour := fun _ => .finish results

/-- Gives its arguments back. -/
def echo : HostBehaviour := fun args => .finish (args.map some)

/-- Records its arguments under a name. -/
def logging (name : String) : HostBehaviour := fun args => .record ⟨name, args⟩ (.finish [])

end HostBehaviour

end WasmMachine
