/-
# Table instructions

A run of table entries is in bounds when its end is at most the size of the
table; an empty run at the very end is.
-/

import WasmMachine.Machine.Scope

namespace WasmMachine.Step

/-- Read a table entry. -/
def tableGet (index : UInt32) : Step Unit := do
  let table ← fetch (·.tables) (.noTable index) (← tableAddress index)
  let i ← popI32
  match table.elems[i.toNat]? with
  | some r => push (.ref r)
  | none => throw .tableBounds

/-- Write a table entry. -/
def tableSet (index : UInt32) : Step Unit := do
  let addr ← tableAddress index
  let size := (← fetch (·.tables) (.noTable index) addr).elems.size
  let r ← popRef
  let i ← popI32
  if size ≤ i.toNat then throw .tableBounds
  modifyStore (·.writeTable addr i.toNat [r])

/-- Copy references out of an element segment. -/
def tableInit (segment table : UInt32) : Step Unit := do
  let segmentAddr ← elemAddress segment
  let tableAddr ← tableAddress table
  let (d, s, n) ← popThree
  let source := (← fetch (·.elems) (.noElement segment) segmentAddr).refs
  let size := (← fetch (·.tables) (.noTable table) tableAddr).elems.size
  if source.length < s.toNat + n.toNat ∨ size < d.toNat + n.toNat then throw .tableBounds
  modifyStore (·.writeTable tableAddr d.toNat ((source.drop s.toNat).take n.toNat))

/-- Empty an element segment. -/
def elemDrop (segment : UInt32) : Step Unit := do
  let addr ← elemAddress segment
  modifyStore (·.dropElem addr)

/-- Copy references from one table to another, or within one. -/
def tableCopy (target source : UInt32) : Step Unit := do
  let targetAddr ← tableAddress target
  let sourceAddr ← tableAddress source
  let (d, s, n) ← popThree
  let from_ := (← fetch (·.tables) (.noTable source) sourceAddr).elems
  let size := (← fetch (·.tables) (.noTable target) targetAddr).elems.size
  match Cells.read? from_ s.toNat n.toNat with
  | none => throw .tableBounds
  | some refs =>
      if size < d.toNat + n.toNat then throw .tableBounds
      modifyStore (·.writeTable targetAddr d.toNat refs)

/-- Add entries to a table and give its old size, or -1 if it may not grow. -/
def tableGrow (index : UInt32) : Step Unit := do
  let addr ← tableAddress index
  let table ← fetch (·.tables) (.noTable index) addr
  let n ← popI32
  let r ← popRef
  if table.mayGrow n.toNat then
    push (.i32 (UInt32.ofNat table.elems.size))
    modifyStore (·.growTable addr n.toNat r)
  else push (.i32 (-1))

/-- The size of a table. -/
def tableSize (index : UInt32) : Step Unit := do
  let table ← fetch (·.tables) (.noTable index) (← tableAddress index)
  push (.i32 (UInt32.ofNat table.elems.size))

/-- Write one reference to a run of entries. -/
def tableFill (index : UInt32) : Step Unit := do
  let addr ← tableAddress index
  let size := (← fetch (·.tables) (.noTable index) addr).elems.size
  let n ← popI32
  let r ← popRef
  let i ← popI32
  if size < i.toNat + n.toNat then throw .tableBounds
  modifyStore (·.writeTable addr i.toNat (List.replicate n.toNat r))

end WasmMachine.Step
