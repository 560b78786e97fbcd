/-
# Plain instructions are safe

Each plain instruction, in the scope of typed code and on operands of the types of its
signature, leaves results of the types of its signature, or traps as checked code may.
-/

import WasmMachine.Machine.Plain
import WasmMachine.Proofs.Safety.Scope

namespace WasmMachine

open Typing

namespace Step

variable {α β : Type} {σ : Shape} {ctx : Context} {s : Scope} {type : ValType}
  {types after : List ValType} {index : UInt32}

namespace Runs

variable {step : Step α} {rest : PUnit → Step β} {Good : β → Prop}

/-- A check that traps when it fails stands in front of the rest. -/
theorem guard {c : Prop} [Decidable c] {t : Trap} (expected : t.Expected)
    (typed : s.Typed σ ctx types) (passes : ¬ c → Runs σ ctx (rest ()) s Good after) :
    Runs σ ctx (if c then MonadExcept.throw t >>= rest else rest ()) s Good after := by
  by_cases bad : c
  · rw [if_pos bad]
    exact Ends.stop rfl ⟨expected, typed.store⟩
  · rw [if_neg bad]
    exact passes bad

end Runs

/-! ## Memories -/

theorem accessStart_runs {addr : Addr} {offset : UInt64} {width : Nat}
    (found : σ.memories[addr]? = some ()) (typed : s.Typed σ ctx (.i32 :: types)) :
    Runs σ ctx (accessStart addr offset width) s (fun _ => True) types := by
  unfold accessStart
  apply Runs.bind (fetch_memory_runs found typed)
  intro memory s _ typed
  apply Runs.bind (popI32_runs typed)
  intro base s _ typed
  apply Runs.guard .memoryBounds typed
  intro _
  exact Runs.pure trivial typed

theorem loadBytes_runs {offset : UInt64} {width : Nat} (some_memory : ctx.memories ≠ [])
    (typed : s.Typed σ ctx (.i32 :: types)) :
    Runs σ ctx (loadBytes offset width) s (fun _ => True) types := by
  unfold loadBytes
  apply Runs.bind (memoryAddress_runs some_memory typed)
  intro addr s found typed
  apply Runs.bind (accessStart_runs found typed)
  intro start s _ typed
  apply Runs.bind (fetch_memory_runs found typed)
  intro memory s _ typed
  cases Packed.read? memory.bytes start width with
  | some bytes => exact Runs.pure trivial typed
  | none => exact Runs.throw .memoryBounds typed

theorem storeBytes_runs {offset : UInt64} {bytes : List UInt8} (some_memory : ctx.memories ≠ [])
    (typed : s.Typed σ ctx (.i32 :: types)) :
    Runs σ ctx (storeBytes offset bytes) s (fun _ => True) types := by
  unfold storeBytes
  apply Runs.bind (memoryAddress_runs some_memory typed)
  intro addr s found typed
  apply Runs.bind (accessStart_runs found typed)
  intro start s _ typed
  exact modifyStore_runs (fun _ of => of.writeMemory start bytes) typed

theorem load_runs {a : MemoryAccess} {offset : UInt64} (load : a.store = false)
    (loads : ∀ bytes, (a.decode bytes).Has σ.size a.type) (some_memory : ctx.memories ≠ [])
    (typed : s.Typed σ ctx (.i32 :: types)) :
    Runs σ ctx (memoryAccess a offset) s (fun _ => True) (a.type :: types) := by
  unfold memoryAccess
  rw [load, if_neg Bool.false_ne_true]
  apply Runs.bind (loadBytes_runs some_memory typed)
  intro bytes s _ typed
  exact push_runs (loads bytes) typed

theorem store_runs {a : MemoryAccess} {offset : UInt64} (store : a.store = true)
    (stores : ∀ v : Value, v.Has σ.size a.type → ∃ bytes, a.encode? v = some bytes)
    (some_memory : ctx.memories ≠ []) (typed : s.Typed σ ctx (a.type :: .i32 :: types)) :
    Runs σ ctx (memoryAccess a offset) s (fun _ => True) types := by
  unfold memoryAccess
  rw [store, if_pos rfl]
  apply Runs.bind (popValue_runs typed)
  intro v s has typed
  obtain ⟨bytes, found⟩ := stores v has
  simp only [found]
  exact storeBytes_runs some_memory typed

theorem memorySize_runs (some_memory : ctx.memories ≠ []) (typed : s.Typed σ ctx types) :
    Runs σ ctx memorySize s (fun _ => True) (.i32 :: types) := by
  unfold memorySize
  apply Runs.bind (memoryAddress_runs some_memory typed)
  intro addr s found typed
  apply Runs.bind (fetch_memory_runs found typed)
  intro memory s _ typed
  exact push_runs (.i32 _) typed

theorem memoryGrow_runs (some_memory : ctx.memories ≠ [])
    (typed : s.Typed σ ctx (.i32 :: types)) :
    Runs σ ctx memoryGrow s (fun _ => True) (.i32 :: types) := by
  unfold memoryGrow
  apply Runs.bind (memoryAddress_runs some_memory typed)
  intro addr s found typed
  apply Runs.bind (fetch_memory_runs found typed)
  intro memory s _ typed
  apply Runs.bind (popI32_runs typed)
  intro count s _ typed
  split
  · apply Runs.bind (push_runs (.i32 _) typed)
    intro _ s _ typed
    exact modifyStore_runs (fun _ of => of.growMemory _) typed
  · exact push_runs (.i32 _) typed

theorem memoryInit_runs (inside : index.toNat < ctx.dataCount) (some_memory : ctx.memories ≠ [])
    (typed : s.Typed σ ctx (.i32 :: .i32 :: .i32 :: types)) :
    Runs σ ctx (memoryInit index) s (fun _ => True) types := by
  unfold memoryInit
  apply Runs.bind (dataAddress_runs inside typed)
  intro segment s found typed
  apply Runs.bind (memoryAddress_runs some_memory typed)
  intro addr s found' typed
  apply Runs.bind (popThree_runs typed)
  intro (target, source, count) s _ typed
  apply Runs.bind (fetch_data_runs found typed)
  intro data s _ typed
  apply Runs.bind (fetch_memory_runs found' typed)
  intro memory s _ typed
  apply Runs.guard .memoryBounds typed
  intro _
  exact modifyStore_runs (fun _ of => of.writeMemory _ _) typed

theorem dataDrop_runs (inside : index.toNat < ctx.dataCount) (typed : s.Typed σ ctx types) :
    Runs σ ctx (dataDrop index) s (fun _ => True) types := by
  unfold dataDrop
  apply Runs.bind (dataAddress_runs inside typed)
  intro addr s _ typed
  exact modifyStore_runs (fun _ of => of.dropData) typed

theorem memoryCopy_runs (some_memory : ctx.memories ≠ [])
    (typed : s.Typed σ ctx (.i32 :: .i32 :: .i32 :: types)) :
    Runs σ ctx memoryCopy s (fun _ => True) types := by
  unfold memoryCopy
  apply Runs.bind (memoryAddress_runs some_memory typed)
  intro addr s found typed
  apply Runs.bind (popThree_runs typed)
  intro (target, source, count) s _ typed
  apply Runs.bind (fetch_memory_runs found typed)
  intro memory s _ typed
  simp only
  split
  · exact Runs.throw .memoryBounds typed
  · apply Runs.guard .memoryBounds typed
    intro _
    exact modifyStore_runs (fun _ of => of.writeMemory _ _) typed

theorem memoryFill_runs (some_memory : ctx.memories ≠ [])
    (typed : s.Typed σ ctx (.i32 :: .i32 :: .i32 :: types)) :
    Runs σ ctx memoryFill s (fun _ => True) types := by
  unfold memoryFill
  apply Runs.bind (memoryAddress_runs some_memory typed)
  intro addr s found typed
  apply Runs.bind (popThree_runs typed)
  intro (target, v, count) s _ typed
  apply Runs.bind (fetch_memory_runs found typed)
  intro memory s _ typed
  apply Runs.guard .memoryBounds typed
  intro _
  exact modifyStore_runs (fun _ of => of.writeMemory _ _) typed

/-! ## Tables -/

variable {table : TableType}

theorem tableGet_runs (found : ctx.tables[index.toNat]? = some table) (reference : table.elem.isRef)
    (typed : s.Typed σ ctx (.i32 :: types)) :
    Runs σ ctx (tableGet index) s (fun _ => True) (table.elem :: types) := by
  unfold tableGet
  apply Runs.bind (tableAddress_runs found typed)
  intro addr s leads typed
  apply Runs.bind (fetch_table_runs reference leads typed)
  intro t s entries typed
  apply Runs.bind (popI32_runs typed)
  intro i s _ typed
  split
  · next r there => exact push_runs (entries r (Array.mem_of_getElem? there)) typed
  · exact Runs.throw .tableBounds typed

theorem tableSet_runs (found : ctx.tables[index.toNat]? = some table) (reference : table.elem.isRef)
    (typed : s.Typed σ ctx (table.elem :: .i32 :: types)) :
    Runs σ ctx (tableSet index) s (fun _ => True) types := by
  unfold tableSet
  apply Runs.bind (tableAddress_runs found typed)
  intro addr s leads typed
  apply Runs.bind (fetch_table_runs reference leads typed)
  intro t s _ typed
  apply Runs.bind (popRef_runs reference typed)
  intro r s has typed
  apply Runs.bind (popI32_runs typed)
  intro i s _ typed
  apply Runs.guard .tableBounds typed
  intro _
  apply modifyStore_runs _ typed
  intro store of
  apply of.writeTable leads
  intro x mem
  rwa [List.mem_singleton.mp mem]

theorem tableInit_runs {segment : UInt32}
    (known : ctx.elements[segment.toNat]? = some table.elem)
    (found : ctx.tables[index.toNat]? = some table) (reference : table.elem.isRef)
    (typed : s.Typed σ ctx (.i32 :: .i32 :: .i32 :: types)) :
    Runs σ ctx (tableInit segment index) s (fun _ => True) types := by
  unfold tableInit
  apply Runs.bind (elemAddress_runs known typed)
  intro segmentAddr s leads typed
  apply Runs.bind (tableAddress_runs found typed)
  intro addr s leads' typed
  apply Runs.bind (popThree_runs typed)
  intro (target, source, count) s _ typed
  apply Runs.bind (fetch_elem_runs leads typed)
  intro e s refs typed
  apply Runs.bind (fetch_table_runs reference leads' typed)
  intro t s _ typed
  apply Runs.guard .tableBounds typed
  intro _
  apply modifyStore_runs _ typed
  intro store of
  apply of.writeTable leads'
  intro r mem
  exact refs r (List.mem_of_mem_drop (List.mem_of_mem_take mem))

theorem elemDrop_runs (inside : index.toNat < ctx.elements.length)
    (typed : s.Typed σ ctx types) : Runs σ ctx (elemDrop index) s (fun _ => True) types := by
  unfold elemDrop
  apply Runs.bind (elemAddress_runs (List.getElem?_eq_getElem inside) typed)
  intro addr s _ typed
  exact modifyStore_runs (fun _ of => of.dropElem) typed

theorem tableCopy_runs {from_ : UInt32} {source : TableType}
    (found : ctx.tables[index.toNat]? = some table)
    (found' : ctx.tables[from_.toNat]? = some source) (same : table.elem = source.elem)
    (reference : table.elem.isRef) (typed : s.Typed σ ctx (.i32 :: .i32 :: .i32 :: types)) :
    Runs σ ctx (tableCopy index from_) s (fun _ => True) types := by
  unfold tableCopy
  apply Runs.bind (tableAddress_runs found typed)
  intro addr s leads typed
  apply Runs.bind (tableAddress_runs found' typed)
  intro addr' s leads' typed
  rw [← same] at leads'
  apply Runs.bind (popThree_runs typed)
  intro (target, start, count) s _ typed
  apply Runs.bind (fetch_table_runs reference leads' typed)
  intro t' s entries typed
  apply Runs.bind (fetch_table_runs reference leads typed)
  intro t s _ typed
  simp only
  split
  · exact Runs.throw .tableBounds typed
  · next refs there =>
      apply Runs.guard .tableBounds typed
      intro _
      apply modifyStore_runs _ typed
      intro store of
      exact of.writeTable leads _ fun r mem => entries r (Cells.mem_of_read? there mem)

theorem tableGrow_runs (found : ctx.tables[index.toNat]? = some table)
    (reference : table.elem.isRef) (typed : s.Typed σ ctx (.i32 :: table.elem :: types)) :
    Runs σ ctx (tableGrow index) s (fun _ => True) (.i32 :: types) := by
  unfold tableGrow
  apply Runs.bind (tableAddress_runs found typed)
  intro addr s leads typed
  apply Runs.bind (fetch_table_runs reference leads typed)
  intro t s _ typed
  apply Runs.bind (popI32_runs typed)
  intro count s _ typed
  apply Runs.bind (popRef_runs reference typed)
  intro r s has typed
  split
  · apply Runs.bind (push_runs (.i32 _) typed)
    intro _ s _ typed
    exact modifyStore_runs (fun _ of => of.growTable leads _ has) typed
  · exact push_runs (.i32 _) typed

theorem tableSize_runs (found : ctx.tables[index.toNat]? = some table)
    (reference : table.elem.isRef) (typed : s.Typed σ ctx types) :
    Runs σ ctx (tableSize index) s (fun _ => True) (.i32 :: types) := by
  unfold tableSize
  apply Runs.bind (tableAddress_runs found typed)
  intro addr s leads typed
  apply Runs.bind (fetch_table_runs reference leads typed)
  intro t s _ typed
  exact push_runs (.i32 _) typed

theorem tableFill_runs (found : ctx.tables[index.toNat]? = some table)
    (reference : table.elem.isRef) (typed : s.Typed σ ctx (.i32 :: table.elem :: .i32 :: types)) :
    Runs σ ctx (tableFill index) s (fun _ => True) types := by
  unfold tableFill
  apply Runs.bind (tableAddress_runs found typed)
  intro addr s leads typed
  apply Runs.bind (fetch_table_runs reference leads typed)
  intro t s _ typed
  apply Runs.bind (popI32_runs typed)
  intro count s _ typed
  apply Runs.bind (popRef_runs reference typed)
  intro r s has typed
  apply Runs.bind (popI32_runs typed)
  intro start s _ typed
  apply Runs.guard .tableBounds typed
  intro _
  apply modifyStore_runs _ typed
  intro store of
  apply of.writeTable leads
  intro x mem
  rwa [(List.mem_replicate.mp mem).2]

/-! ## Variables and references -/

theorem localGet_runs (found : ctx.locals[index.toNat]? = some type)
    (typed : s.Typed σ ctx types) :
    Runs σ ctx (localGet index) s (fun _ => True) (type :: types) := by
  obtain ⟨f, some_frame, running⟩ := typed.frame
  obtain ⟨v, there, has⟩ := exists_getElem?_of_forall₂ running.locals found
  rw [Array.getElem?_toList] at there
  unfold localGet
  apply Ends.step rfl
  simp only [some_frame, there]
  exact push_runs has typed

theorem checkLocal_runs (found : ctx.locals[index.toNat]? = some type)
    (typed : s.Typed σ ctx types) : Runs σ ctx (checkLocal index) s (fun _ => True) types := by
  obtain ⟨f, some_frame, running⟩ := typed.frame
  obtain ⟨v, there, has⟩ := exists_getElem?_of_forall₂ running.locals found
  rw [Array.getElem?_toList] at there
  obtain ⟨inside, -⟩ := Array.getElem?_eq_some_iff.mp there
  unfold checkLocal
  apply Ends.step rfl
  simp only [some_frame, if_neg (Nat.not_le.mpr inside)]
  exact ⟨trivial, typed⟩

theorem writeLocal_runs {v : Value} (found : ctx.locals[index.toNat]? = some type)
    (has : v.Has σ.size type) (typed : s.Typed σ ctx types) :
    Runs σ ctx (writeLocal index v) s (fun _ => True) types := by
  obtain ⟨f, some_frame, running⟩ := typed.frame
  refine ⟨trivial, typed.operands, ?_, typed.store⟩
  refine ⟨_, congrArg (Option.map _) some_frame, running.home, ?_⟩
  show Values σ.size (f.locals.setIfInBounds index.toNat v).toList ctx.locals
  rw [Array.toList_setIfInBounds]
  exact running.locals.set found has

theorem localSet_runs (found : ctx.locals[index.toNat]? = some type)
    (typed : s.Typed σ ctx (type :: types)) :
    Runs σ ctx (localSet index) s (fun _ => True) types := by
  unfold localSet
  apply Runs.bind (checkLocal_runs found typed)
  intro _ s _ typed
  apply Runs.bind (popValue_runs typed)
  intro v s has typed
  exact writeLocal_runs found has typed

theorem localTee_runs (found : ctx.locals[index.toNat]? = some type)
    (typed : s.Typed σ ctx (type :: types)) :
    Runs σ ctx (localTee index) s (fun _ => True) (type :: types) := by
  unfold localTee
  apply Runs.bind (checkLocal_runs found typed)
  intro _ s _ typed
  apply Runs.bind (popValue_runs typed)
  intro v s has typed
  apply Runs.bind (writeLocal_runs found has typed)
  intro _ s _ typed
  exact push_runs has typed

variable {global : GlobalType}

theorem globalGet_runs (found : ctx.globals[index.toNat]? = some global)
    (typed : s.Typed σ ctx types) :
    Runs σ ctx (globalGet index) s (fun _ => True) (global.type :: types) := by
  unfold globalGet
  apply Runs.bind (globalAddress_runs found typed)
  intro addr s leads typed
  apply Runs.bind (fetch_global_runs leads typed)
  intro g s holds typed
  exact push_runs holds.2 typed

theorem globalSet_runs (found : ctx.globals[index.toNat]? = some global)
    (mutable : global.mutable = true) (typed : s.Typed σ ctx (global.type :: types)) :
    Runs σ ctx (globalSet index) s (fun _ => True) types := by
  unfold globalSet
  apply Runs.bind (globalAddress_runs found typed)
  intro addr s leads typed
  apply Runs.bind (fetch_global_runs leads typed)
  rintro g s ⟨rfl, -⟩ typed
  apply Runs.bind (popValue_runs typed)
  intro v s has typed
  simp only [has.type, mutable, ne_eq, not_true_eq_false, if_false, Bool.not_true,
    Bool.false_eq_true]
  exact modifyStore_runs (fun _ of => of.writeGlobal leads has) typed

theorem refIsNull_runs (reference : type.isRef) (typed : s.Typed σ ctx (type :: types)) :
    Runs σ ctx refIsNull s (fun _ => True) (.i32 :: types) := by
  unfold refIsNull
  apply Runs.bind (popRef_runs reference typed)
  intro r s _ typed
  exact push_runs (.ofBool _) typed

theorem refFunc_runs {type : FuncType} (found : ctx.funcs[index.toNat]? = some type)
    (typed : s.Typed σ ctx types) :
    Runs σ ctx (refFunc index) s (fun _ => True) (.funcref :: types) := by
  unfold refFunc
  apply Runs.bind (funcAddress_runs found typed)
  intro addr s leads typed
  obtain ⟨inside, -⟩ := List.getElem?_eq_some_iff.mp leads
  rw [List.length_map] at inside
  exact push_runs ⟨rfl, inside⟩ typed

/-- Both operands are of one type, so it does not matter which one is kept. -/
theorem select_runs {order : SelectOrder} (typed : s.Typed σ ctx (.i32 :: type :: type :: types)) :
    Runs σ ctx (select order) s (fun _ => True) (type :: types) := by
  unfold select
  apply Runs.bind (popI32_runs typed)
  intro condition s _ typed
  apply Runs.bind (popValue_runs typed)
  intro top s has typed
  apply Runs.bind (popValue_runs typed)
  intro bottom s has' typed
  by_cases order : order = .bottomOnTrue
  · simp only [order, if_true]
    split
    · exact push_runs has' typed
    · exact push_runs has typed
  · simp only [order, if_false]
    split
    · exact push_runs has typed
    · exact push_runs has' typed

/-! ## Families -/

theorem misc_runs {sub : UInt32} {operands : List UInt32} {op : MiscOp} {type : FuncType}
    (references : ∀ t ∈ ctx.tables, t.elem.isRef) (known : MiscOp.ofCode sub = some op)
    (signature : MiscTyped ctx operands op type)
    (typed : s.Typed σ ctx (type.params.reverse ++ types)) :
    Runs σ ctx (misc sub operands) s (fun _ => True) (type.results.reverse ++ types) := by
  unfold misc
  rw [known]
  cases signature with
  | truncate => exact onOperands_runs typed fun _ _ typed => truncateOperand_gives typed
  | memoryInit inside memory => exact memoryInit_runs inside memory typed
  | dataDrop inside => exact dataDrop_runs inside typed
  | memoryCopy memory => exact memoryCopy_runs memory typed
  | memoryFill memory => exact memoryFill_runs memory typed
  | tableInit segment found =>
      exact tableInit_runs segment found (references _ (List.mem_of_getElem? found)) typed
  | elemDrop inside => exact elemDrop_runs inside typed
  | tableCopy found found' same =>
      exact tableCopy_runs found found' same (references _ (List.mem_of_getElem? found)) typed
  | tableGrow found => exact tableGrow_runs found (references _ (List.mem_of_getElem? found)) typed
  | tableSize inside =>
      exact tableSize_runs (List.getElem?_eq_getElem inside)
        (references _ (List.getElem_mem inside)) typed
  | tableFill found => exact tableFill_runs found (references _ (List.mem_of_getElem? found)) typed

theorem vector_runs {imm : Instruction.VectorImmediate} {op : VectorOp} {type : FuncType}
    (known : VectorOp.ofCode imm.sub = some op) (signature : VectorTyped ctx imm op type)
    (typed : s.Typed σ ctx (type.params.reverse ++ types)) :
    Runs σ ctx (vector imm) s (fun _ => True) (type.results.reverse ++ types) := by
  unfold vector
  simp only [known]
  cases signature with
  | load moves memory _ =>
      simp only [moves]
      unfold vectorAccess
      rw [if_neg Bool.false_ne_true]
      apply Runs.bind (loadBytes_runs memory typed)
      intro bytes s _ typed
      exact push_runs (.v128 _) typed
  | store moves memory _ =>
      simp only [moves]
      unfold vectorAccess
      rw [if_pos rfl]
      apply Runs.bind (popValue_runs typed)
      intro v s has typed
      obtain ⟨bits, rfl⟩ := has.eq_v128
      exact storeBytes_runs memory typed
  | lanes none inside shuffle =>
      simp only [none]
      have indices : op = .shuffle → imm.bytes ≠ Option.none := by
        intro is missing
        obtain ⟨indices, found, -⟩ := shuffle is
        exact absurd (missing.symm.trans found) (by simp)
      obtain ⟨result, same⟩ := VectorOp.exists_result none
      simp only [same]
      exact onOperands_runs typed fun _ _ typed => VectorOp.gives none same typed inside indices

/-! ## All of them -/

/-- An instruction that has a signature and calls nothing turns operands of its
parameter types into results of its result types. -/
theorem plain_runs {options : Options} {i : Instruction} {type : FuncType}
    (references : ∀ t ∈ ctx.tables, t.elem.isRef) (signature : PlainTyped ctx i type)
    (direct : i.opcode ≠ Opcode.call) (indirect : i.opcode ≠ Opcode.callIndirect)
    (typed : s.Typed σ ctx (type.params.reverse ++ types)) :
    Runs σ ctx (plain options i) s (fun _ => True) (type.results.reverse ++ types) := by
  unfold plain
  cases signature with
  | numeric known =>
      simp only [known]
      exact onOperands_runs typed fun _ _ typed => Numeric.Operation.gives typed
  | load known load memory _ =>
      simp only [MemoryAccess.numeric_eq_none known, known]
      exact load_runs load (fun bytes => MemoryAccess.has_decode known bytes) memory typed
  | store known store memory _ =>
      simp only [MemoryAccess.numeric_eq_none known, known]
      exact store_runs store (fun _ has => MemoryAccess.exists_encode known has) memory typed
  | i32Const is =>
      rw [is]
      exact push_runs (.i32 _) typed
  | i64Const is =>
      rw [is]
      exact push_runs (.i64 _) typed
  | f32Const is =>
      rw [is]
      exact push_runs (.f32 _) typed
  | f64Const is =>
      rw [is]
      exact push_runs (.f64 _) typed
  | nop is =>
      rw [is]
      exact Runs.pure trivial typed
  | call is => exact absurd is direct
  | callIndirect is => exact absurd is indirect
  | selectTyped is =>
      rw [is]
      exact select_runs typed
  | localGet is found =>
      rw [is]
      exact localGet_runs found typed
  | localSet is found =>
      rw [is]
      exact localSet_runs found typed
  | localTee is found =>
      rw [is]
      exact localTee_runs found typed
  | globalGet is found =>
      rw [is]
      exact globalGet_runs found typed
  | globalSet is found mutable =>
      rw [is]
      exact globalSet_runs found mutable typed
  | tableGet is found =>
      rw [is]
      exact tableGet_runs found (references _ (List.mem_of_getElem? found)) typed
  | tableSet is found =>
      rw [is]
      exact tableSet_runs found (references _ (List.mem_of_getElem? found)) typed
  | memorySize is memory =>
      rw [is]
      exact memorySize_runs memory typed
  | memoryGrow is memory =>
      rw [is]
      exact memoryGrow_runs memory typed
  | refNull is reference =>
      have numeric : Numeric.Operation.ofOpcode Opcode.refNull = none :=
        Numeric.Operation.eq_none_of_le (by decide)
      simp only [is, numeric]
      exact push_runs ⟨rfl, reference⟩ typed
  | refFunc is inside _ =>
      have numeric : Numeric.Operation.ofOpcode Opcode.refFunc = none :=
        Numeric.Operation.eq_none_of_le (by decide)
      simp only [is, numeric]
      exact refFunc_runs (List.getElem?_eq_getElem inside) typed
  | misc is known signature =>
      have numeric : Numeric.Operation.ofOpcode Opcode.misc = none :=
        Numeric.Operation.eq_none_of_le (by decide)
      simp only [is, numeric]
      exact misc_runs references known signature typed
  | vector is known signature =>
      have numeric : Numeric.Operation.ofOpcode Opcode.vector = none :=
        Numeric.Operation.eq_none_of_le (by decide)
      simp only [is, numeric]
      exact vector_runs known signature typed

end Step

end WasmMachine
