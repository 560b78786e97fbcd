/-
# Views in an embedding

The embedder uses a view between calls, on the store as the last call left it.
-/

import WasmMachine.Embedding.Basic
import WasmMachine.Store.View

namespace WasmMachine

namespace Embed

/-- Change a memory through a view. -/
def writeView (change : Store → Except Trap Store) : Embed Unit := do
  match change (← get).store with
  | .ok store => onMachine (modify fun m => { m with store := store })
  | .error t => fail t.toFault

/-- Grow a memory through a view. -/
def growView (view : MemoryView) (count : UInt32) : Embed (Option Nat) := do
  match view.grow (← get).store count with
  | some (old, store) =>
      onMachine (modify fun m => { m with store := store })
      return some old
  | none => return none

end Embed

end WasmMachine
