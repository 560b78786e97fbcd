/-
# Views of memories

An embedder reads and writes an exported memory through a view.  A view is the
address of the memory, so it sees the memory as it is at each access, also after
it has grown.  Offsets and lengths have 32 bits.

Host functions use views as well: they name an instance and a memory that it exports,
and the view answers their request.
-/

import WasmMachine.Binary.Leb128
import WasmMachine.Store.Basic
import WasmMachine.Trap

namespace WasmMachine

/-- A view of a memory. -/
structure MemoryView where
  addr : Addr
  deriving DecidableEq, Repr

namespace MemoryView

variable (view : MemoryView)

/-- The bytes of the memory. -/
def bytes (s : Store) : ByteArray := ((s.memories[view.addr]?).map (·.bytes)).getD .empty

/-- The length in bytes, in 32 bits. -/
def size (s : Store) : UInt32 := UInt32.ofNat (view.bytes s).size

/-- The length in pages. -/
def pages (s : Store) : UInt32 := UInt32.ofNat (((s.memories[view.addr]?).map (·.pages)).getD 0)

/-- The bytes from an offset on. -/
def read (s : Store) (offset length : UInt32) : Except Trap (List UInt8) :=
  match Packed.read? (view.bytes s) offset.toNat length.toNat with
  | some bytes => .ok bytes
  | none => .error (.viewBounds offset.toNat length.toNat (view.bytes s).size)

/-- Put bytes at an offset. Their number is taken in 32 bits, and so many of them
are written. -/
def write (s : Store) (offset : UInt32) (bytes : List UInt8) : Except Trap Store := do
  let length := UInt32.ofNat bytes.length
  let _ ← view.read s offset length
  return s.writeMemory view.addr offset.toNat (bytes.take length.toNat)

/-- A number of `width` bytes, lowest first. -/
def readNumber (s : Store) (width : Nat) (offset : UInt32) : Except Trap Nat := do
  return Decoder.littleEndian (← view.read s offset (UInt32.ofNat width))

/-- Put a number of `width` bytes, lowest first. -/
def writeNumber (s : Store) (width : Nat) (offset : UInt32) (n : Nat) : Except Trap Store :=
  view.write s offset (Encode.littleEndian width n)

/-- Add pages; gives the old number of pages, or nothing if the memory may not
grow. -/
def grow (s : Store) (count : UInt32) : Option (Nat × Store) :=
  match s.memories[view.addr]? with
  | none => none
  | some m =>
      if m.mayGrow count.toNat then some (m.pages, s.growMemory view.addr count.toNat) else none

/-- The answer to a request, and the store after it. -/
def ask (s : Store) : ViewRequest → ViewAnswer × Store
  | .size => (.size (view.size s) (view.pages s), s)
  | .read offset length =>
      match view.read s offset length with
      | .ok found => (.bytes found, s)
      | .error t => (.refused t.toFault, s)
  | .write offset bytes =>
      match view.write s offset bytes with
      | .ok s' => (.written, s')
      | .error t => (.refused t.toFault, s)
  | .grow pages =>
      match view.grow s pages with
      | some (old, s') => (.grown (some old), s')
      | none => (.grown none, s)

end MemoryView

namespace Store

/-- The memory that a named instance exports under a name. -/
def namedMemory? (s : Store) (names : List (String × InstanceId)) (inst memory : String) :
    Option Addr := do
  let id ← names.lookup inst
  (← s.instances[id]?).exportedMemory? memory

/-- The answer of the view of the memory that a named instance exports, and the store after
it. -/
def useView (s : Store) (names : List (String × InstanceId)) (inst memory : String)
    (request : ViewRequest) : Option ViewAnswer × Store :=
  match s.namedMemory? names inst memory with
  | some addr =>
      let (answer, s') := MemoryView.ask ⟨addr⟩ s request
      (some answer, s')
  | none => (none, s)

end Store

end WasmMachine
