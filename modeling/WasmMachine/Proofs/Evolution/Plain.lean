/-
# Plain instructions change one thing

Each plain instruction is taken apart along its steps.  All of them but the last leave the
store alone, and what they have found out is what the change that comes last needs.
-/

import WasmMachine.Proofs.Evolution.Change

namespace WasmMachine.Step

variable {st : Store}

/-! ## Memories -/

theorem accessStart_quiet (addr : Addr) (offset : UInt64) (width : Nat) :
    Quiet st (accessStart addr offset width) fun _ => True := by
  unfold accessStart
  refine (fetch_quiet _ _ addr).bind fun memory _ => ?_
  refine popI32_quiet.bind fun base _ => ?_
  exact Quiet.guard fun _ => Quiet.pure trivial

theorem loadBytes_quiet (offset : UInt64) (width : Nat) :
    Quiet st (loadBytes offset width) fun _ => True := by
  unfold loadBytes
  refine (address_quiet _ _ _).bind fun addr _ => ?_
  refine (accessStart_quiet addr offset width).bind fun start _ => ?_
  refine (fetch_quiet _ _ addr).bind fun memory _ => ?_
  split
  · exact Quiet.pure trivial
  · exact Quiet.throw .memoryBounds

theorem storeBytes_writes (offset : UInt64) (bytes : List UInt8) :
    Writes st (storeBytes offset bytes) := by
  unfold storeBytes
  refine (address_quiet _ _ _).before fun addr _ => ?_
  refine (accessStart_quiet addr offset _).before fun start _ => ?_
  exact .modifyStore (.writeMemory addr start bytes)

theorem memoryAccess_writes (a : MemoryAccess) (offset : UInt64) :
    Writes st (memoryAccess a offset) := by
  unfold memoryAccess
  split
  · refine popValue_quiet.before fun v _ => ?_
    split
    · exact storeBytes_writes offset _
    · exact Writes.throw .operands
  · exact (loadBytes_quiet offset a.width).before fun bytes _ => (push_quiet _).writes

theorem vectorAccess_writes (op : VectorOp) (width : Nat) (store : Bool) (offset : UInt64) :
    Writes st (vectorAccess op width store offset) := by
  unfold vectorAccess
  split
  · refine popValue_quiet.before fun v _ => ?_
    split
    · exact storeBytes_writes offset _
    · exact Writes.throw .operands
  · exact (loadBytes_quiet offset width).before fun bytes _ => (push_quiet _).writes

theorem memorySize_quiet : Quiet st memorySize fun _ => True := by
  unfold memorySize
  refine (address_quiet _ _ _).bind fun addr _ => ?_
  exact (fetch_quiet _ _ addr).bind fun memory _ => push_quiet _

theorem memoryGrow_writes : Writes st memoryGrow := by
  unfold memoryGrow
  refine (address_quiet _ _ _).before fun addr _ => ?_
  refine (fetch_quiet _ _ addr).before fun memory found => ?_
  refine popI32_quiet.before fun count _ => ?_
  split
  · next room => exact (push_quiet _).before fun _ _ => .modifyStore (.growMemory found room)
  · exact (push_quiet _).writes

theorem memoryInit_writes (segment : UInt32) : Writes st (memoryInit segment) := by
  unfold memoryInit
  refine (address_quiet _ _ _).before fun segmentAddr _ => ?_
  refine (address_quiet _ _ _).before fun addr _ => ?_
  refine popThree_quiet.before fun (target, source, count) _ => ?_
  refine (fetch_quiet _ _ segmentAddr).before fun data _ => ?_
  refine (fetch_quiet _ _ addr).before fun memory _ => ?_
  exact .guard fun _ => .modifyStore (.writeMemory addr _ _)

theorem dataDrop_writes (segment : UInt32) : Writes st (dataDrop segment) := by
  unfold dataDrop
  exact (address_quiet _ _ _).before fun addr _ => .modifyStore (.dropData addr)

theorem memoryCopy_writes : Writes st memoryCopy := by
  unfold memoryCopy
  refine (address_quiet _ _ _).before fun addr _ => ?_
  refine popThree_quiet.before fun (target, source, count) _ => ?_
  refine (fetch_quiet _ _ addr).before fun memory _ => ?_
  simp only
  split
  · exact Writes.throw .memoryBounds
  · exact .guard fun _ => .modifyStore (.writeMemory addr _ _)

theorem memoryFill_writes : Writes st memoryFill := by
  unfold memoryFill
  refine (address_quiet _ _ _).before fun addr _ => ?_
  refine popThree_quiet.before fun (target, v, count) _ => ?_
  refine (fetch_quiet _ _ addr).before fun memory _ => ?_
  exact .guard fun _ => .modifyStore (.writeMemory addr _ _)

/-! ## Tables -/

theorem tableGet_quiet (index : UInt32) : Quiet st (tableGet index) fun _ => True := by
  unfold tableGet
  refine (address_quiet _ _ index).bind fun addr _ => ?_
  refine (fetch_quiet _ _ addr).bind fun table _ => ?_
  refine popI32_quiet.bind fun i _ => ?_
  split
  · exact push_quiet _
  · exact Quiet.throw .tableBounds

theorem tableSet_writes (index : UInt32) : Writes st (tableSet index) := by
  unfold tableSet
  refine (address_quiet _ _ index).before fun addr _ => ?_
  refine (fetch_quiet _ _ addr).before fun table _ => ?_
  refine popRef_quiet.before fun r _ => ?_
  refine popI32_quiet.before fun i _ => ?_
  exact .guard fun _ => .modifyStore (.writeTable addr _ _)

theorem tableInit_writes (segment table : UInt32) : Writes st (tableInit segment table) := by
  unfold tableInit
  refine (address_quiet _ _ segment).before fun segmentAddr _ => ?_
  refine (address_quiet _ _ table).before fun tableAddr _ => ?_
  refine popThree_quiet.before fun (target, source, count) _ => ?_
  refine (fetch_quiet _ _ segmentAddr).before fun e _ => ?_
  refine (fetch_quiet _ _ tableAddr).before fun t _ => ?_
  exact .guard fun _ => .modifyStore (.writeTable tableAddr _ _)

theorem elemDrop_writes (segment : UInt32) : Writes st (elemDrop segment) := by
  unfold elemDrop
  exact (address_quiet _ _ _).before fun addr _ => .modifyStore (.dropElem addr)

theorem tableCopy_writes (target source : UInt32) : Writes st (tableCopy target source) := by
  unfold tableCopy
  refine (address_quiet _ _ target).before fun targetAddr _ => ?_
  refine (address_quiet _ _ source).before fun sourceAddr _ => ?_
  refine popThree_quiet.before fun (start, from_, count) _ => ?_
  refine (fetch_quiet _ _ sourceAddr).before fun sourceTable _ => ?_
  refine (fetch_quiet _ _ targetAddr).before fun targetTable _ => ?_
  simp only
  split
  · exact Writes.throw .tableBounds
  · exact .guard fun _ => .modifyStore (.writeTable targetAddr _ _)

theorem tableGrow_writes (index : UInt32) : Writes st (tableGrow index) := by
  unfold tableGrow
  refine (address_quiet _ _ index).before fun addr _ => ?_
  refine (fetch_quiet _ _ addr).before fun table found => ?_
  refine popI32_quiet.before fun count _ => ?_
  refine popRef_quiet.before fun r _ => ?_
  split
  · next room => exact (push_quiet _).before fun _ _ => .modifyStore (.growTable r found room)
  · exact (push_quiet _).writes

theorem tableSize_quiet (index : UInt32) : Quiet st (tableSize index) fun _ => True := by
  unfold tableSize
  refine (address_quiet _ _ index).bind fun addr _ => ?_
  exact (fetch_quiet _ _ addr).bind fun table _ => push_quiet _

theorem tableFill_writes (index : UInt32) : Writes st (tableFill index) := by
  unfold tableFill
  refine (address_quiet _ _ index).before fun addr _ => ?_
  refine (fetch_quiet _ _ addr).before fun table _ => ?_
  refine popI32_quiet.before fun count _ => ?_
  refine popRef_quiet.before fun r _ => ?_
  refine popI32_quiet.before fun start _ => ?_
  exact .guard fun _ => .modifyStore (.writeTable addr _ _)

/-! ## Variables and references -/

theorem checkLocal_quiet (index : UInt32) : Quiet st (checkLocal index) fun _ => True := by
  unfold checkLocal
  refine get_quiet.bind fun s _ => ?_
  split
  · exact Quiet.throw .noFrame
  · split
    · exact Quiet.throw (.noLocal index)
    · exact Quiet.pure trivial

theorem localGet_quiet (index : UInt32) : Quiet st (localGet index) fun _ => True := by
  unfold localGet
  refine get_quiet.bind fun s _ => ?_
  split
  · exact Quiet.throw .noFrame
  · split
    · exact push_quiet _
    · exact Quiet.throw (.noLocal index)

/-- The frame is written last, so that nothing can go wrong behind it. -/
theorem localSet_writes (index : UInt32) : Writes st (localSet index) := by
  unfold localSet
  refine (checkLocal_quiet index).before fun _ _ => ?_
  exact popValue_quiet.before fun v _ _ same => Ends.of_ok rfl (.inl same)

theorem localTee_writes (index : UInt32) : Writes st (localTee index) := by
  unfold localTee
  refine (checkLocal_quiet index).before fun _ _ => ?_
  exact popValue_quiet.before fun v _ _ same => Ends.of_ok rfl (.inl same)

theorem globalGet_quiet (index : UInt32) : Quiet st (globalGet index) fun _ => True := by
  unfold globalGet
  refine (address_quiet _ _ index).bind fun addr _ => ?_
  exact (fetch_quiet _ _ addr).bind fun g _ => push_quiet _

/-- A global is written only when it is mutable and with a value of its type. -/
theorem globalSet_writes (index : UInt32) : Writes st (globalSet index) := by
  unfold globalSet
  refine (address_quiet _ _ index).before fun addr _ => ?_
  refine (fetch_quiet _ _ addr).before fun g found => ?_
  refine popValue_quiet.before fun v _ => ?_
  refine .guard fun same => .guard fun mutable => ?_
  exact .modifyStore (.writeGlobal found (Decidable.not_not.mp same) (by simpa using mutable))

theorem refIsNull_quiet : Quiet st refIsNull fun _ => True := by
  unfold refIsNull
  exact popRef_quiet.bind fun r _ => push_quiet _

theorem refFunc_quiet (index : UInt32) : Quiet st (refFunc index) fun _ => True := by
  unfold refFunc
  exact (address_quiet _ _ index).bind fun addr _ => push_quiet _

theorem select_quiet (order : SelectOrder) : Quiet st (select order) fun _ => True := by
  unfold select
  refine popI32_quiet.bind fun condition _ => ?_
  refine popValue_quiet.bind fun top _ => ?_
  refine popValue_quiet.bind fun bottom _ => ?_
  exact push_quiet _

/-! ## All of them -/

theorem misc_writes (sub : UInt32) (operands : List UInt32) : Writes st (misc sub operands) := by
  unfold misc
  simp only
  split
  · exact Writes.throw (.unsupportedMisc sub)
  · exact (onOperands_quiet _).writes
  · exact memoryInit_writes _
  · exact dataDrop_writes _
  · exact memoryCopy_writes
  · exact memoryFill_writes
  · exact tableInit_writes _ _
  · exact elemDrop_writes _
  · exact tableCopy_writes _ _
  · exact tableGrow_writes _
  · exact (tableSize_quiet _).writes
  · exact tableFill_writes _

theorem vector_writes (imm : Instruction.VectorImmediate) : Writes st (vector imm) := by
  unfold vector
  split
  · exact Writes.throw (.unsupportedVector imm.sub)
  · split
    · exact vectorAccess_writes _ _ _ _
    · exact (onOperands_quiet _).writes

/-- A plain instruction makes at most one change to the store, and none when it traps. -/
theorem plain_writes (options : Options) (i : Instruction) : Writes st (plain options i) := by
  unfold plain
  split
  · exact (onOperands_quiet _).writes
  · split
    · exact memoryAccess_writes _ _
    · split
      · exact Writes.throw .unreachable
      · exact Writes.pure ()
      · exact popValue_quiet.discard.writes
      · exact (select_quiet _).writes
      · exact (select_quiet _).writes
      · exact (localGet_quiet _).writes
      · exact localSet_writes _
      · exact localTee_writes _
      · exact (globalGet_quiet _).writes
      · exact globalSet_writes _
      · exact (tableGet_quiet _).writes
      · exact tableSet_writes _
      · exact memorySize_quiet.writes
      · exact memoryGrow_writes
      · exact (push_quiet _).writes
      · exact (push_quiet _).writes
      · exact (push_quiet _).writes
      · exact (push_quiet _).writes
      · exact (push_quiet _).writes
      · exact refIsNull_quiet.writes
      · exact (refFunc_quiet _).writes
      · exact misc_writes _ _
      · exact vector_writes _
      · exact Writes.throw (.unsupportedOpcode _)

end WasmMachine.Step
