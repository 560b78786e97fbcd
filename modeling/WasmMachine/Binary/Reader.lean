/-
# Reading bytes

A reader is a window onto an input: the bytes that are still to be read and the
position of the first of them in the whole input.  Reading from a part of the
input (a section, a function body) is reading from a smaller window with the same
positions.

A decoding step gives a value or an error, and in both cases the reader it leaves
behind, because an error names the position that the failing step reached.
-/

import WasmMachine.Binary.DecodeError

namespace WasmMachine

/-- A window onto an input. -/
structure Reader where
  position : Nat
  rest : List UInt8
  deriving Repr

/-- A step that reads from a window and may fail. -/
abbrev Decoder := EStateM DecodeError Reader

namespace Reader

/-- The whole of an input. -/
def ofBytes (bytes : List UInt8) : Reader := ⟨0, bytes⟩

/-- The number of bytes left. -/
def left (r : Reader) : Nat := r.rest.length

/-- Whether a window has `n` more bytes. No window has a negative number. -/
def holds (r : Reader) (n : Int) : Bool := 0 ≤ n && n ≤ r.left

end Reader

namespace Decoder

/-- Fail, saying how far the reader has come. -/
def failHere {α : Type} (cause : DecodeError) : Decoder α := fun r =>
  .error (.atPosition r.position cause) r

/-- Fail, saying how far the reader has come in which part of the binary. An
error that already says so is kept. -/
def failIn {α : Type} (part : String) (cause : DecodeError) : Decoder α := fun r =>
  .error (if cause.isLocated then cause else .located part r.position cause) r

/-- Run a step; an error is located in a part of the binary. -/
def locate {α : Type} (part : String) (step : Decoder α) : Decoder α := fun r =>
  match step r with
  | .ok a r => .ok a r
  | .error cause r => failIn part cause r

/-- Run a step; an error is said to be inside a place. -/
def inside {α : Type} (place : Place) (step : Decoder α) : Decoder α := fun r =>
  match step r with
  | .ok a r => .ok a r
  | .error cause r => .error (.inside place cause) r

/-- The number of bytes left. -/
def left : Decoder Nat := fun r => .ok r.left r

/-- One byte. -/
def byte : Decoder UInt8 := fun r =>
  match r.rest with
  | [] => .error .endOfInput r
  | b :: rest => .ok b ⟨r.position + 1, rest⟩

/-- Exactly `n` bytes; when they are not there nothing is read. -/
def bytes (n : Int) : Decoder (List UInt8) := fun r =>
  if r.holds n then
    .ok (r.rest.take n.toNat) ⟨r.position + n.toNat, r.rest.drop n.toNat⟩
  else .error .unexpectedEnd r

/-- The next `n` bytes as a window of their own. -/
def window (n : Int) : Decoder Reader := fun r =>
  if r.holds n then
    .ok ⟨r.position, r.rest.take n.toNat⟩ ⟨r.position + n.toNat, r.rest.drop n.toNat⟩
  else failHere .unexpectedEnd r

/-- Run a step on the next `n` bytes as if they were all there is; its result
comes with the number of bytes it left unread. The outer reader goes on behind
the window. -/
def within {α : Type} (inner : Reader) (step : Decoder α) : Decoder (α × Reader) := fun r =>
  match step inner with
  | .ok a inner => .ok (a, inner) r
  | .error cause _ => .error cause r

/-- The number whose digits in base 256 are the given bytes, lowest first. -/
def littleEndian : List UInt8 → Nat
  | [] => 0
  | b :: rest => b.toNat + 256 * littleEndian rest

/-- Four bytes as a number, lowest first. -/
def u32le : Decoder UInt32 := do return UInt32.ofNat (littleEndian (← bytes 4))

/-- Eight bytes as a number, lowest first. -/
def u64le : Decoder UInt64 := do return UInt64.ofNat (littleEndian (← bytes 8))

end Decoder

end WasmMachine
