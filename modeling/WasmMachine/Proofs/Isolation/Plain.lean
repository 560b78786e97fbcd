/-
# Plain instructions in two surroundings

A plain instruction of an instance's code reads and writes nothing but what the instance
owns, and the references that it moves about lead nowhere else.  So it goes the same way in
both surroundings.  The instructions on numbers and vectors put nothing but numbers on the
operands.
-/

import WasmMachine.Machine.Plain
import WasmMachine.Proofs.Isolation.Enclave
import WasmMachine.Proofs.Typing.Signature

namespace WasmMachine

/-! ## Numbers -/

/-- A number or a vector, and no reference. -/
def Value.IsNumber : Value → Prop
  | .ref _ => False
  | _ => True

theorem Value.IsNumber.within {x : Value} (number : x.IsNumber) (inst : ModuleInstance) :
    x.Within inst := by
  cases x with
  | ref r => exact number.elim
  | _ => trivial

/-- An operation on operands takes some away and puts a number on top, or it traps. -/
def Computes (operands : List Value) : Except Trap (List Value) → Prop
  | .ok operands' => ∃ x rest, operands' = x :: rest ∧ x.IsNumber ∧ rest <:+ operands
  | .error _ => True

namespace Computes

variable {x a b c : Value} {operands rest : List Value}

theorem within {operation : List Value → Except Trap (List Value)} {inst : ModuleInstance}
    (computes : ∀ operands, Computes operands (operation operands)) (operands operands' : List Value)
    (result : operation operands = .ok operands') (within : ∀ x ∈ operands, x.Within inst) :
    ∀ x ∈ operands', x.Within inst := by
  have computed := computes operands
  rw [result] at computed
  obtain ⟨x, rest, rfl, number, suffix⟩ := computed
  intro y mem
  rcases List.mem_cons.mp mem with rfl | mem
  · exact number.within inst
  · exact within y (suffix.subset mem)

theorem zero (number : x.IsNumber) : Computes rest (.ok (x :: rest)) :=
  ⟨x, rest, rfl, number, List.suffix_rfl⟩

theorem one (number : x.IsNumber) : Computes (a :: rest) (.ok (x :: rest)) :=
  ⟨x, rest, rfl, number, [a], rfl⟩

theorem two (number : x.IsNumber) : Computes (b :: a :: rest) (.ok (x :: rest)) :=
  ⟨x, rest, rfl, number, [b, a], rfl⟩

theorem three (number : x.IsNumber) : Computes (c :: b :: a :: rest) (.ok (x :: rest)) :=
  ⟨x, rest, rfl, number, [c, b, a], rfl⟩

end Computes

namespace Numeric

theorem Width.isNumber_intValue (w : Width) (n : Int) : (w.intValue n).IsNumber := by
  cases w with
  | _ => trivial

theorem Width.isNumber_floatValue (w : Width) (bits : Nat) : (w.floatValue bits).IsNumber := by
  cases w with
  | _ => trivial

theorem Conversion.isNumber {op : Conversion} {a b : Value} (converts : op.apply a = .ok b) :
    b.IsNumber := by
  unfold Conversion.apply at converts
  split at converts
  case h_4 | h_5 =>
    obtain ⟨n, -, returned⟩ := Typing.bind_eq_ok_iff.mp converts
    cases returned
    exact Width.isNumber_intValue _ n
  case h_14 => cases converts
  all_goals
    cases converts
    first
    | trivial
    | exact Width.isNumber_floatValue _ _

theorem Operation.computes (op : Operation) (operands : List Value) :
    Computes operands (op.apply operands) := by
  fun_cases Operation.apply op operands with
  | case7 op b a rest =>
      cases op.apply32 a b with
      | ok x => exact .two trivial
      | error t => trivial
  | case8 op b a rest =>
      cases op.apply64 a b with
      | ok x => exact .two trivial
      | error t => trivial
  | case15 op a rest =>
      cases converts : op.apply a with
      | ok x => exact .one (Conversion.isNumber converts)
      | error t => trivial
  | case16 => trivial
  | _ =>
      first
      | exact .one trivial
      | exact .two trivial

end Numeric

namespace VectorOp

theorem isNumber_extractScalar (v : V128) (shape : LaneShape) (signed : Bool) (i : Nat) :
    (v.extractScalar shape signed i).IsNumber := by
  cases shape with
  | _ => trivial

theorem computes (op : VectorOp) (lane : UInt8) (bytes : Option V128) (operands : List Value) :
    Computes operands (op.apply lane bytes operands) := by
  fun_cases VectorOp.apply op lane bytes operands with
  | case7 operands shape signed =>
      cases checkLane shape lane with
      | error t => trivial
      | ok _ =>
          dsimp only [bind, Except.bind]
          split
          · exact .one (isNumber_extractScalar _ shape signed lane.toNat)
          · trivial
  | case8 operands shape =>
      cases checkLane shape lane with
      | error t => trivial
      | ok _ =>
          dsimp only [bind, Except.bind]
          split
          · next x v rest =>
              cases V128.scalarBits? shape x with
              | none => trivial
              | some bits => exact .two trivial
          · trivial
  | _ =>
      first
      | exact .zero trivial
      | exact .one trivial
      | exact .two trivial
      | exact .three trivial
      | trivial

end VectorOp

theorem computes_truncateOperand (to64 signed : Bool) (operands : List Value) :
    Computes operands (truncateOperand to64 signed operands) := by
  unfold truncateOperand
  split
  · exact .one (Numeric.Width.isNumber_intValue _ _)
  · exact .one (Numeric.Width.isNumber_intValue _ _)
  · trivial

theorem MemoryAccess.isNumber_decode (a : MemoryAccess) (bytes : List UInt8) :
    (a.decode bytes).IsNumber := by
  unfold decode
  simp only
  repeat
    split
    · trivial
  trivial

namespace Enclave

variable {v : Enclave}

open Step

theorem computing_steps {operation : List Value → Except Trap (List Value)}
    (computes : ∀ operands, Computes operands (operation operands)) :
    v.Steps (onOperands operation) fun _ => True := onOperands_steps (Computes.within computes)

/-! ## Memories -/

theorem accessStart_steps {addr : Addr} (own : addr ∈ v.inst.memories) (offset : UInt64)
    (width : Nat) : v.Steps (accessStart addr offset width) fun _ => True := by
  unfold accessStart
  refine (fetchMemory_steps _ own).bind fun memory _ => ?_
  refine popI32_steps.bind fun base _ => ?_
  exact .guard fun _ => .pure trivial

theorem loadBytes_steps (offset : UInt64) (width : Nat) :
    v.Steps (loadBytes offset width) fun _ => True := by
  unfold loadBytes
  refine (address_steps _ _ _).bind fun addr own => ?_
  refine (accessStart_steps own offset width).bind fun start _ => ?_
  refine (fetchMemory_steps _ own).bind fun memory _ => ?_
  split
  · exact .pure trivial
  · exact .throw _

theorem storeBytes_steps (offset : UInt64) (bytes : List UInt8) :
    v.Steps (storeBytes offset bytes) fun _ => True := by
  unfold storeBytes
  refine (address_steps _ _ _).bind fun addr own => ?_
  refine (accessStart_steps own offset _).bind fun start _ => ?_
  exact modifyMemory_steps own _

theorem memoryAccess_steps (a : MemoryAccess) (offset : UInt64) :
    v.Steps (memoryAccess a offset) fun _ => True := by
  unfold memoryAccess
  split
  · refine popValue_steps.bind fun x _ => ?_
    split
    · exact storeBytes_steps offset _
    · exact .throw _
  · refine (loadBytes_steps offset a.width).bind fun bytes _ => ?_
    exact push_steps ((a.isNumber_decode bytes).within v.inst)

theorem vectorAccess_steps (op : VectorOp) (width : Nat) (store : Bool) (offset : UInt64) :
    v.Steps (vectorAccess op width store offset) fun _ => True := by
  unfold vectorAccess
  split
  · refine popValue_steps.bind fun x _ => ?_
    split
    · exact storeBytes_steps offset _
    · exact .throw _
  · exact (loadBytes_steps offset width).bind fun bytes _ => push_steps trivial

theorem memorySize_steps : v.Steps memorySize fun _ => True := by
  unfold memorySize
  refine (address_steps _ _ _).bind fun addr own => ?_
  exact (fetchMemory_steps _ own).bind fun memory _ => push_steps trivial

theorem memoryGrow_steps : v.Steps memoryGrow fun _ => True := by
  unfold memoryGrow
  refine (address_steps _ _ _).bind fun addr own => ?_
  refine (fetchMemory_steps _ own).bind fun memory _ => ?_
  refine popI32_steps.bind fun count _ => ?_
  split
  · exact (push_steps (by trivial)).bind fun _ _ => modifyMemory_steps own _
  · exact push_steps trivial

theorem memoryInit_steps (segment : UInt32) : v.Steps (memoryInit segment) fun _ => True := by
  unfold memoryInit
  refine (address_steps _ _ _).bind fun segmentAddr ownSegment => ?_
  refine (address_steps _ _ _).bind fun addr own => ?_
  refine popThree_steps.bind fun (target, source, count) _ => ?_
  refine (fetchData_steps _ ownSegment).bind fun data _ => ?_
  refine (fetchMemory_steps _ own).bind fun memory _ => ?_
  exact .guard fun _ => modifyMemory_steps own _

theorem dataDrop_steps (segment : UInt32) : v.Steps (dataDrop segment) fun _ => True := by
  unfold dataDrop
  refine (address_steps _ _ _).bind fun addr own => ?_
  exact modifyStore_steps (Store.rewrites_data addr _) own fun _ within => within.mapData _

theorem memoryCopy_steps : v.Steps memoryCopy fun _ => True := by
  unfold memoryCopy
  refine (address_steps _ _ _).bind fun addr own => ?_
  refine popThree_steps.bind fun (target, source, count) _ => ?_
  refine (fetchMemory_steps _ own).bind fun memory _ => ?_
  simp only
  split
  · exact .throw _
  · exact .guard fun _ => modifyMemory_steps own _

theorem memoryFill_steps : v.Steps memoryFill fun _ => True := by
  unfold memoryFill
  refine (address_steps _ _ _).bind fun addr own => ?_
  refine popThree_steps.bind fun (target, x, count) _ => ?_
  refine (fetchMemory_steps _ own).bind fun memory _ => ?_
  exact .guard fun _ => modifyMemory_steps own _

/-! ## Tables -/

/-- References that are written into a table come from the instance. -/
theorem writeTable_steps {addr : Addr} (own : addr ∈ v.inst.tables) (start : Nat)
    {refs : List Ref} (within : ∀ r ∈ refs, r.Within v.inst) :
    v.Steps (modifyStore (·.writeTable addr start refs)) fun _ => True :=
  modifyTable_steps own fun _ old => Cells.forall_overwrite old within

theorem tableGet_steps (index : UInt32) : v.Steps (tableGet index) fun _ => True := by
  unfold tableGet
  refine (address_steps _ _ index).bind fun addr own => ?_
  refine (fetchTable_steps _ own).bind fun table within => ?_
  refine popI32_steps.bind fun i _ => ?_
  split
  · next r found => exact push_steps (within r (Array.mem_of_getElem? found))
  · exact .throw _

theorem tableSet_steps (index : UInt32) : v.Steps (tableSet index) fun _ => True := by
  unfold tableSet
  refine (address_steps _ _ index).bind fun addr own => ?_
  refine (fetchTable_steps _ own).bind fun table _ => ?_
  refine popRef_steps.bind fun r within => ?_
  refine popI32_steps.bind fun i _ => ?_
  refine .guard fun _ => writeTable_steps own _ fun r' mem => ?_
  cases List.mem_singleton.mp mem
  exact within

theorem tableInit_steps (segment table : UInt32) :
    v.Steps (tableInit segment table) fun _ => True := by
  unfold tableInit
  refine (address_steps _ _ segment).bind fun segmentAddr ownSegment => ?_
  refine (address_steps _ _ table).bind fun tableAddr own => ?_
  refine popThree_steps.bind fun (target, source, count) _ => ?_
  refine (fetchElem_steps _ ownSegment).bind fun e within => ?_
  refine (fetchTable_steps _ own).bind fun t _ => ?_
  refine .guard fun _ => writeTable_steps own _ fun r mem => ?_
  exact within r (List.mem_of_mem_drop (List.mem_of_mem_take mem))

theorem elemDrop_steps (segment : UInt32) : v.Steps (elemDrop segment) fun _ => True := by
  unfold elemDrop
  refine (address_steps _ _ segment).bind fun addr own => ?_
  refine modifyStore_steps (Store.rewrites_elem addr _) own fun _ within => within.mapElem ?_
  exact fun _ r mem => absurd mem List.not_mem_nil

theorem tableCopy_steps (target source : UInt32) :
    v.Steps (tableCopy target source) fun _ => True := by
  unfold tableCopy
  refine (address_steps _ _ target).bind fun targetAddr own => ?_
  refine (address_steps _ _ source).bind fun sourceAddr ownSource => ?_
  refine popThree_steps.bind fun (start, from_, count) _ => ?_
  refine (fetchTable_steps _ ownSource).bind fun sourceTable within => ?_
  refine (fetchTable_steps _ own).bind fun targetTable _ => ?_
  simp only
  split
  · exact .throw _
  · next read =>
      refine .guard fun _ => writeTable_steps own _ fun r mem => ?_
      exact within r (Cells.mem_of_read? read mem)

theorem tableGrow_steps (index : UInt32) : v.Steps (tableGrow index) fun _ => True := by
  unfold tableGrow
  refine (address_steps _ _ index).bind fun addr own => ?_
  refine (fetchTable_steps _ own).bind fun table _ => ?_
  refine popI32_steps.bind fun count _ => ?_
  refine popRef_steps.bind fun r within => ?_
  split
  · refine (push_steps (by trivial)).bind fun _ _ => modifyTable_steps own fun t old r' mem => ?_
    rcases Array.mem_append.mp mem with mem | mem
    · exact old r' mem
    · cases (Array.mem_replicate.mp mem).2
      exact within
  · exact push_steps trivial

theorem tableSize_steps (index : UInt32) : v.Steps (tableSize index) fun _ => True := by
  unfold tableSize
  refine (address_steps _ _ index).bind fun addr own => ?_
  exact (fetchTable_steps _ own).bind fun table _ => push_steps trivial

theorem tableFill_steps (index : UInt32) : v.Steps (tableFill index) fun _ => True := by
  unfold tableFill
  refine (address_steps _ _ index).bind fun addr own => ?_
  refine (fetchTable_steps _ own).bind fun table _ => ?_
  refine popI32_steps.bind fun count _ => ?_
  refine popRef_steps.bind fun r within => ?_
  refine popI32_steps.bind fun start _ => ?_
  refine .guard fun _ => writeTable_steps own _ fun r' mem => ?_
  cases (List.mem_replicate.mp mem).2
  exact within

/-! ## Variables and references -/

theorem checkLocal_steps (index : UInt32) : v.Steps (checkLocal index) fun _ => True := by
  unfold checkLocal
  refine get_steps ?_
  rintro ⟨operands, frame, s⟩ t inScope
  cases frame with
  | none => exact .error ⟨t, inScope, rfl⟩
  | some f =>
      simp only
      split
      · exact .error ⟨t, inScope, rfl⟩
      · exact .ok trivial ⟨t, inScope, rfl⟩

theorem localGet_steps (index : UInt32) : v.Steps (localGet index) fun _ => True := by
  unfold localGet
  refine get_steps ?_
  rintro ⟨operands, frame, s⟩ t inScope
  cases frame with
  | none => exact .error ⟨t, inScope, rfl⟩
  | some f =>
      simp only
      cases found : f.locals[index.toNat]? with
      | none => exact .error ⟨t, inScope, rfl⟩
      | some x =>
          have within := (inScope.frame f rfl).locals x (Array.mem_of_getElem? found)
          exact push_steps within _ _ ⟨t, inScope, rfl⟩

theorem writeLocal_steps (index : UInt32) {x : Value} (within : x.Within v.inst) :
    v.Steps (writeLocal index x) fun _ => True := by
  refine Lockstep.modify ?_
  rintro s _ ⟨t, inScope, rfl⟩
  refine ⟨t, { inScope with frame := fun f written => ?_ }, rfl⟩
  obtain ⟨f', running, rfl⟩ := Option.map_eq_some_iff.mp written
  have runs := inScope.frame f' running
  refine ⟨runs.home, fun y mem => ?_⟩
  rcases Array.mem_or_eq_of_mem_setIfInBounds mem with mem | rfl
  · exact runs.locals y mem
  · exact within

theorem localSet_steps (index : UInt32) : v.Steps (localSet index) fun _ => True := by
  unfold localSet
  refine (checkLocal_steps index).bind fun _ _ => ?_
  exact popValue_steps.bind fun x within => writeLocal_steps index within

theorem localTee_steps (index : UInt32) : v.Steps (localTee index) fun _ => True := by
  unfold localTee
  refine (checkLocal_steps index).bind fun _ _ => ?_
  refine popValue_steps.bind fun x within => ?_
  exact (writeLocal_steps index within).bind fun _ _ => push_steps within

theorem globalGet_steps (index : UInt32) : v.Steps (globalGet index) fun _ => True := by
  unfold globalGet
  refine (address_steps _ _ index).bind fun addr own => ?_
  exact (fetchGlobal_steps _ own).bind fun g within => push_steps within

theorem globalSet_steps (index : UInt32) : v.Steps (globalSet index) fun _ => True := by
  unfold globalSet
  refine (address_steps _ _ index).bind fun addr own => ?_
  refine (fetchGlobal_steps _ own).bind fun g _ => ?_
  refine popValue_steps.bind fun x within => ?_
  refine .guard fun _ => .guard fun _ => ?_
  exact modifyStore_steps (Store.rewrites_global addr _) own fun _ old => old.mapGlobal fun _ => within

theorem refIsNull_steps : v.Steps refIsNull fun _ => True := by
  unfold refIsNull
  exact popRef_steps.bind fun r _ => push_steps trivial

/-- A reference that the code makes is to a function of its instance. -/
theorem refFunc_steps (index : UInt32) : v.Steps (refFunc index) fun _ => True := by
  unfold refFunc
  exact (address_steps _ _ index).bind fun addr own => push_steps own

theorem select_steps (order : SelectOrder) : v.Steps (select order) fun _ => True := by
  unfold select
  refine popI32_steps.bind fun condition _ => ?_
  refine popValue_steps.bind fun top topWithin => ?_
  refine popValue_steps.bind fun bottom bottomWithin => ?_
  refine push_steps ?_
  cases order with
  | topOnTrue =>
      split
      · exact topWithin
      · exact bottomWithin
  | bottomOnTrue =>
      split
      · exact bottomWithin
      · exact topWithin

/-! ## All of them -/

theorem misc_steps (sub : UInt32) (operands : List UInt32) :
    v.Steps (misc sub operands) fun _ => True := by
  unfold misc
  simp only
  split
  · exact .throw _
  · exact computing_steps (computes_truncateOperand _ _)
  · exact memoryInit_steps _
  · exact dataDrop_steps _
  · exact memoryCopy_steps
  · exact memoryFill_steps
  · exact tableInit_steps _ _
  · exact elemDrop_steps _
  · exact tableCopy_steps _ _
  · exact tableGrow_steps _
  · exact tableSize_steps _
  · exact tableFill_steps _

theorem vector_steps (imm : Instruction.VectorImmediate) : v.Steps (vector imm) fun _ => True := by
  unfold vector
  split
  · exact .throw _
  · next op _ =>
      split
      · exact vectorAccess_steps _ _ _ _
      · exact computing_steps (op.computes _ _)

/-- A plain instruction goes the same way in both surroundings. -/
theorem plain_steps (options : Options) (i : Instruction) :
    v.Steps (plain options i) fun _ => True := by
  unfold plain
  split
  · next operation _ => exact computing_steps operation.computes
  · split
    · exact memoryAccess_steps _ _
    · split
      · exact .throw _
      · exact .pure trivial
      · exact popValue_steps.discard
      · exact select_steps _
      · exact select_steps _
      · exact localGet_steps _
      · exact localSet_steps _
      · exact localTee_steps _
      · exact globalGet_steps _
      · exact globalSet_steps _
      · exact tableGet_steps _
      · exact tableSet_steps _
      · exact memorySize_steps
      · exact memoryGrow_steps
      · exact push_steps trivial
      · exact push_steps trivial
      · exact push_steps trivial
      · exact push_steps trivial
      · exact push_steps trivial
      · exact refIsNull_steps
      · exact refFunc_steps _
      · exact misc_steps _ _
      · exact vector_steps _
      · exact .throw _

end Enclave

end WasmMachine
