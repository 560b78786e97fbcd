/-
# Counted items

Items that follow their number.  A count that exceeds the bytes left can never be
met, since no item is empty; with `early` such a count is refused before an item
is read, without it the items run out of bytes on their own.
-/

import WasmMachine.Binary.Leb128

namespace WasmMachine.Decoder

/-- `n` more items, the first of which is item `index`, behind those in `done`
(last item first). -/
def itemsFrom {α : Type} (item : Nat → Decoder α) : Nat → Nat → List α → Decoder (List α)
  | 0, _, done => return done.reverse
  | n + 1, index, done => do
      let a ← item index
      itemsFrom item n (index + 1) (a :: done)

/-- `n` items, each step given its index. -/
def items {α : Type} (n : Nat) (item : Nat → Decoder α) : Decoder (List α) :=
  itemsFrom item n 0 []

/-- The number of items that follow. -/
def count (early : Bool) : Decoder UInt32 := do
  let n ← u32
  let bytes ← left
  if early && bytes < n.toNat then failIn "vector" (.count n bytes)
  return n

/-- A number and that many items. -/
def vector {α : Type} (early : Bool) (item : Nat → Decoder α) : Decoder (List α) := do
  let n ← count early
  items n.toNat item

end WasmMachine.Decoder
