/-
# Computed signatures

The signature that the checker computes for a plain instruction is the one the
typing relation gives it, and there is one exactly when the side conditions on the
immediate hold.
-/

import WasmMachine.Proofs.Instruction.Families
import WasmMachine.Proofs.Typing.Relation

namespace WasmMachine

namespace Typing

variable {ε α β : Type}

/-- A sequence of checks succeeds exactly when each of them does. -/
theorem bind_eq_ok_iff {first : Except ε α} {next : α → Except ε β} {b : β} :
    (first >>= next) = .ok b ↔ ∃ a, first = .ok a ∧ next a = .ok b := by
  cases first with
  | ok a => simp [bind, Except.bind]
  | error v => simp [bind, Except.bind]

/-- A check that fails stands in front of the rest. -/
theorem refuse_eq_ok_iff {c : Prop} [Decidable c] {v : Violation} {next : PUnit → Except Violation β}
    {rest : Except Violation β} {b : β} :
    (if c then throw v >>= next else rest) = .ok b ↔ ¬ c ∧ rest = .ok b := by
  by_cases bad : c
  · simp [bad, throw, throwThe, MonadExceptOf.throw, bind, Except.bind]
  · simp [bad]

theorem entry_eq_ok_iff {space : Space} {items : List α} {index : UInt32} {a : α} :
    entry space items index = .ok a ↔ items[index.toNat]? = some a := by
  unfold entry
  split
  · next found => simp [found]
  · next missing => simp [missing]

namespace Context

variable {ctx : Context}

theorem needMemory_eq_ok_iff {u : Unit} : ctx.needMemory = .ok u ↔ ctx.memories ≠ [] := by
  unfold needMemory
  cases ctx.memories <;> simp

theorem needData_eq_ok_iff {index : UInt32} {u : Unit} :
    ctx.needData index = .ok u ↔ index.toNat < ctx.dataCount := by
  unfold needData
  split
  · simpa using Nat.not_lt.mpr ‹_›
  · simpa using Nat.lt_of_not_le ‹_›

/-- No instruction moves as many bytes as the largest alignment that fits a word. -/
theorem checkAlignment_eq_ok_iff {op : UInt8} {align : UInt32} {width : Nat} {u : Unit}
    (narrow : width ≤ 16) : checkAlignment op align width = .ok u ↔ Aligned align width := by
  have large : 32 ≤ align.toNat → width < 2 ^ align.toNat := fun large =>
    Nat.lt_of_le_of_lt narrow (Nat.lt_of_lt_of_le (by decide : 16 < 2 ^ 32)
      (Nat.pow_le_pow_right (by decide) large))
  unfold checkAlignment Aligned
  simp only [Bool.or_eq_true, decide_eq_true_eq]
  split
  · next bad =>
      have bad : width < 2 ^ align.toNat := bad.elim large id
      simpa using Nat.not_le.mpr bad
  · next good => simpa using Nat.le_of_not_lt fun bad => good (.inr bad)

theorem accessSignature_eq_ok_iff {op : UInt8} {align : UInt32} {width : Nat} {type : ValType}
    {store : Bool} {signature : FuncType} (narrow : width ≤ 16) :
    ctx.accessSignature op align width type store = .ok signature ↔
      ctx.memories ≠ [] ∧ Aligned align width ∧
        signature = if store then ⟨[.i32, type], []⟩ else ⟨[.i32], [type]⟩ := by
  simp only [accessSignature, bind_eq_ok_iff, needMemory_eq_ok_iff,
    checkAlignment_eq_ok_iff narrow]
  simp [pure, Except.pure, eq_comm]

private theorem ofCode_of_miscSignature {op : UInt8} {sub : UInt32} {operands : List UInt32}
    {type : FuncType} (ok : ctx.miscSignature op sub operands = .ok type) :
    ∃ misc, MiscOp.ofCode sub = some misc := by
  cases known : MiscOp.ofCode sub with
  | some misc => exact ⟨misc, rfl⟩
  | none =>
      unfold miscSignature at ok
      rw [known] at ok
      cases ok

section Misc

variable {op : UInt8} {sub : UInt32} {operands : List UInt32} {misc : MiscOp} {type : FuncType}

/-- The operations on the memory and on data segments. -/
private theorem miscSignature_of_memory (known : MiscOp.ofCode sub = some misc)
    (family : misc ∈ [.memoryInit, .dataDrop, .memoryCopy, .memoryFill]) :
    ctx.miscSignature op sub operands = .ok type ↔ MiscTyped ctx operands misc type := by
  simp only [List.mem_cons, List.not_mem_nil, or_false] at family
  unfold miscSignature
  rw [known]
  rcases family with rfl | rfl | rfl | rfl
  all_goals
    simp only [bind_eq_ok_iff, needData_eq_ok_iff, needMemory_eq_ok_iff, exists_const]
    constructor
  -- `memory.init`
  · rintro ⟨data, memory, same⟩
    cases same
    exact .memoryInit data memory
  · intro typed
    cases typed with
    | memoryInit data memory => exact ⟨data, memory, rfl⟩
  -- `data.drop`
  · rintro ⟨data, same⟩
    cases same
    exact .dataDrop data
  · intro typed
    cases typed with
    | dataDrop data => exact ⟨data, rfl⟩
  -- `memory.copy`
  · rintro ⟨memory, same⟩
    cases same
    exact .memoryCopy memory
  · intro typed
    cases typed with
    | memoryCopy memory => exact ⟨memory, rfl⟩
  -- `memory.fill`
  · rintro ⟨memory, same⟩
    cases same
    exact .memoryFill memory
  · intro typed
    cases typed with
    | memoryFill memory => exact ⟨memory, rfl⟩

/-- The operations that move references between element segments and tables. -/
private theorem miscSignature_of_segment (known : MiscOp.ofCode sub = some misc)
    (family : misc ∈ [.tableInit, .elemDrop, .tableCopy]) :
    ctx.miscSignature op sub operands = .ok type ↔ MiscTyped ctx operands misc type := by
  simp only [List.mem_cons, List.not_mem_nil, or_false] at family
  unfold miscSignature
  rw [known]
  rcases family with rfl | rfl | rfl
  all_goals
    simp only [bind_eq_ok_iff, entry_eq_ok_iff, refuse_eq_ok_iff, Decidable.not_not]
    constructor
  -- `table.init`
  · rintro ⟨segment, found, table, found', rfl, same⟩
    cases same
    exact .tableInit found found'
  · intro typed
    cases typed with
    | tableInit found found' => exact ⟨_, found, _, found', rfl, rfl⟩
  -- `elem.drop`
  · rintro ⟨segment, found, same⟩
    cases same
    exact .elemDrop (List.getElem?_eq_some_iff.mp found).1
  · intro typed
    cases typed with
    | elemDrop inside => exact ⟨_, List.getElem?_eq_getElem inside, rfl⟩
  -- `table.copy`
  · rintro ⟨target, found, source, found', types, same⟩
    cases same
    exact .tableCopy found found' types
  · intro typed
    cases typed with
    | tableCopy found found' types => exact ⟨_, found, _, found', types, rfl⟩

/-- The operations on one table. -/
private theorem miscSignature_of_table (known : MiscOp.ofCode sub = some misc)
    (family : misc ∈ [.tableGrow, .tableSize, .tableFill]) :
    ctx.miscSignature op sub operands = .ok type ↔ MiscTyped ctx operands misc type := by
  simp only [List.mem_cons, List.not_mem_nil, or_false] at family
  unfold miscSignature
  rw [known]
  rcases family with rfl | rfl | rfl
  all_goals
    simp only [bind_eq_ok_iff, entry_eq_ok_iff]
    constructor
  -- `table.grow`
  · rintro ⟨table, found, same⟩
    cases same
    exact .tableGrow found
  · intro typed
    cases typed with
    | tableGrow found => exact ⟨_, found, rfl⟩
  -- `table.size`
  · rintro ⟨table, found, same⟩
    cases same
    exact .tableSize (List.getElem?_eq_some_iff.mp found).1
  · intro typed
    cases typed with
    | tableSize inside => exact ⟨_, List.getElem?_eq_getElem inside, rfl⟩
  -- `table.fill`
  · rintro ⟨table, found, same⟩
    cases same
    exact .tableFill found
  · intro typed
    cases typed with
    | tableFill found => exact ⟨_, found, rfl⟩

/-- What the signature of a known miscellaneous instruction is computed from. -/
private theorem miscSignature_of_ofCode (known : MiscOp.ofCode sub = some misc) :
    ctx.miscSignature op sub operands = .ok type ↔ MiscTyped ctx operands misc type := by
  cases misc with
  | truncate to64 from64 signed =>
      unfold miscSignature
      rw [known]
      constructor
      · intro same
        cases same
        exact .truncate
      · rintro ⟨⟩
        rfl
  | memoryInit | dataDrop | memoryCopy | memoryFill =>
      exact miscSignature_of_memory known (by decide)
  | tableInit | elemDrop | tableCopy => exact miscSignature_of_segment known (by decide)
  | tableGrow | tableSize | tableFill => exact miscSignature_of_table known (by decide)

end Misc

theorem checkShuffle_eq_ok_iff {op : UInt8} {bytes : Option V128} {u : Unit} :
    checkShuffle op bytes = .ok u ↔
      ∃ indices, bytes = some indices ∧ ∀ index ∈ indices.toBytes, index.toNat < 32 := by
  unfold checkShuffle
  cases bytes with
  | none => simp
  | some indices =>
      simp only [Option.some.injEq, exists_eq_left']
      split
      · next index found =>
          have large := List.find?_some found
          have mem := List.mem_of_find?_eq_some found
          simp only [decide_eq_true_eq] at large
          simp only [reduceCtorEq, false_iff]
          intro small
          exact absurd (small index mem) (Nat.not_lt.mpr large)
      · next none => simpa using none

/-- The check that only a shuffle undergoes. -/
private theorem shuffle_eq_ok_iff {op : UInt8} {bytes : Option V128} {vector : VectorOp}
    {signature type : FuncType} :
    (if vector = .shuffle then checkShuffle op bytes >>= fun _ => pure signature
      else pure signature) = .ok type ↔
      (vector = .shuffle →
        ∃ indices, bytes = some indices ∧ ∀ index ∈ indices.toBytes, index.toNat < 32) ∧
        signature = type := by
  by_cases shuffle : vector = .shuffle
  · rw [if_pos shuffle, bind_eq_ok_iff]
    simp only [checkShuffle_eq_ok_iff, exists_const, shuffle, true_imp_iff]
    simp [pure, Except.pure]
  · rw [if_neg shuffle]
    simp [shuffle, pure, Except.pure]

private theorem ofCode_of_vectorSignature {op : UInt8} {imm : Instruction.VectorImmediate}
    {type : FuncType} (ok : ctx.vectorSignature op imm = .ok type) :
    ∃ vector, VectorOp.ofCode imm.sub = some vector := by
  cases known : VectorOp.ofCode imm.sub with
  | some vector => exact ⟨vector, rfl⟩
  | none =>
      unfold vectorSignature at ok
      rw [known] at ok
      cases ok

private theorem vectorSignature_of_ofCode {op : UInt8} {imm : Instruction.VectorImmediate}
    {vector : VectorOp} {type : FuncType} (known : VectorOp.ofCode imm.sub = some vector) :
    ctx.vectorSignature op imm = .ok type ↔ VectorTyped ctx imm vector type := by
  unfold vectorSignature
  rw [known]
  dsimp only
  cases access : vector.access? with
  | some moved =>
      obtain ⟨width, store⟩ := moved
      have narrow := VectorOp.width_le access
      dsimp only
      rw [accessSignature_eq_ok_iff narrow]
      constructor
      · rintro ⟨memory, aligned, rfl⟩
        cases store
        · exact .load access memory aligned
        · exact .store access memory aligned
      · intro typed
        cases typed with
        | load access' memory aligned =>
            cases access.symm.trans access'
            exact ⟨memory, aligned, rfl⟩
        | store access' memory aligned =>
            cases access.symm.trans access'
            exact ⟨memory, aligned, rfl⟩
        | lanes none _ _ => exact absurd (none.symm.trans access) (by simp)
  | none =>
      dsimp only
      have lanes : VectorTyped ctx imm vector type ↔
          (∀ shape, vector.laneShape? = some shape → imm.lane.toNat < shape.width.count) ∧
          (vector = .shuffle →
            ∃ indices, imm.bytes = some indices ∧
              ∀ index ∈ indices.toBytes, index.toNat < 32) ∧
          ⟨vector.signature.1, vector.signature.2⟩ = type := by
        constructor
        · intro typed
          cases typed with
          | load moves _ _ => exact absurd (access.symm.trans moves) (by simp)
          | store moves _ _ => exact absurd (access.symm.trans moves) (by simp)
          | lanes _ inside shuffle => exact ⟨inside, shuffle, rfl⟩
        · rintro ⟨inside, shuffle, rfl⟩
          exact .lanes access inside shuffle
      rw [lanes]
      cases vector.laneShape? with
      | none => simpa using shuffle_eq_ok_iff
      | some shape =>
          dsimp only
          rw [refuse_eq_ok_iff, shuffle_eq_ok_iff, Nat.not_le]
          simp

theorem localType_eq_ok_iff {index : UInt32} {type : ValType} :
    ctx.localType index = .ok type ↔ ctx.locals[index.toNat]? = some type := by
  unfold localType
  split
  · next found => simp [found]
  · next missing => simp [missing]

private theorem plainTyped_of_signature {i : Instruction} {type : FuncType}
    (ok : ctx.signature i = .ok type) : PlainTyped ctx i type := by
  unfold signature at ok
  cases numeric : Numeric.Operation.ofOpcode i.opcode with
  | some op =>
      simp only [numeric] at ok
      cases ok
      exact .numeric numeric
  | none =>
      cases memory : MemoryAccess.ofOpcode i.opcode with
      | some access =>
          simp only [numeric, memory,
            accessSignature_eq_ok_iff (MemoryAccess.width_le memory)] at ok
          obtain ⟨some, aligned, same⟩ := ok
          cases store : access.store
          · rw [store] at same
            exact same ▸ .load memory store some aligned
          · rw [store] at same
            exact same ▸ .store memory store some aligned
      | none =>
          simp only [numeric, memory] at ok
          split at ok
          all_goals try simp only [bind_eq_ok_iff, entry_eq_ok_iff, refuse_eq_ok_iff,
            localType_eq_ok_iff, needMemory_eq_ok_iff, pure, Except.pure, Except.ok.injEq,
            exists_const, Decidable.not_not, Bool.not_eq_true', Bool.not_eq_false] at ok
          · next is => exact ok ▸ .i32Const is
          · next is => exact ok ▸ .i64Const is
          · next is => exact ok ▸ .f32Const is
          · next is => exact ok ▸ .f64Const is
          · next is => exact ok ▸ .nop is
          · next is => exact .call is ok
          · next is =>
              obtain ⟨table, found, func, type, known, rfl⟩ := ok
              exact .callIndirect is found func known
          · next is =>
              split at ok
              · next one =>
                  cases ok
                  exact .selectTyped is one
              · cases ok
          · next is =>
              obtain ⟨type, known, rfl⟩ := ok
              exact .localGet is known
          · next is =>
              obtain ⟨type, known, rfl⟩ := ok
              exact .localSet is known
          · next is =>
              obtain ⟨type, known, rfl⟩ := ok
              exact .localTee is known
          · next is =>
              obtain ⟨global, found, rfl⟩ := ok
              exact .globalGet is found
          · next is =>
              obtain ⟨global, found, mutable, rfl⟩ := ok
              exact .globalSet is found mutable
          · next is =>
              obtain ⟨table, found, rfl⟩ := ok
              exact .tableGet is found
          · next is =>
              obtain ⟨table, found, rfl⟩ := ok
              exact .tableSet is found
          · next is =>
              obtain ⟨some, rfl⟩ := ok
              exact .memorySize is some
          · next is =>
              obtain ⟨some, rfl⟩ := ok
              exact .memoryGrow is some
          · next is =>
              obtain ⟨reference, rfl⟩ := ok
              exact .refNull is reference
          · next is =>
              obtain ⟨type, found, declared, rfl⟩ := ok
              exact .refFunc is (List.getElem?_eq_some_iff.mp found).1
                (List.contains_iff_mem.mp declared)
          · next is =>
              obtain ⟨misc, known⟩ := ofCode_of_miscSignature ok
              exact .misc is known ((miscSignature_of_ofCode known).mp ok)
          · next is =>
              obtain ⟨vector, known⟩ := ofCode_of_vectorSignature ok
              exact .vector is known ((vectorSignature_of_ofCode known).mp ok)
          · cases ok

section Computing

variable {i : Instruction} {type : FuncType}

private theorem signature_of_access {access : MemoryAccess} (store : Bool)
    (known : MemoryAccess.ofOpcode i.opcode = some access) (is : access.store = store)
    (memory : ctx.memories ≠ []) (aligned : Aligned i.memArg.align access.width) :
    ctx.signature i =
      .ok (if store then ⟨[.i32, access.type], []⟩ else ⟨[.i32], [access.type]⟩) := by
  unfold signature
  simp only [MemoryAccess.numeric_eq_none known, known, is]
  exact (accessSignature_eq_ok_iff (MemoryAccess.width_le known)).mpr ⟨memory, aligned, rfl⟩

private theorem signature_of_callIndirect {table : TableType} {callee : FuncType}
    (is : i.opcode = Opcode.callIndirect)
    (found : ctx.tables[i.callIndirect.2.toNat]? = some table) (func : table.elem = .funcref)
    (known : ctx.types[i.callIndirect.1.toNat]? = some callee) :
    ctx.signature i = .ok ⟨callee.params ++ [.i32], callee.results⟩ := by
  unfold signature
  rw [is]
  exact bind_eq_ok_iff.mpr ⟨_, entry_eq_ok_iff.mpr found, refuse_eq_ok_iff.mpr
    ⟨not_not_intro func, bind_eq_ok_iff.mpr ⟨_, entry_eq_ok_iff.mpr known, rfl⟩⟩⟩

private theorem signature_of_globalSet {global : GlobalType} (is : i.opcode = Opcode.globalSet)
    (found : ctx.globals[i.globalIndex.toNat]? = some global) (mutable : global.mutable = true) :
    ctx.signature i = .ok ⟨[global.type], []⟩ := by
  unfold signature
  rw [is]
  exact bind_eq_ok_iff.mpr
    ⟨_, entry_eq_ok_iff.mpr found, refuse_eq_ok_iff.mpr ⟨by simp [mutable], rfl⟩⟩

private theorem signature_of_refNull (is : i.opcode = Opcode.refNull)
    (reference : i.refNullType.isRef) : ctx.signature i = .ok ⟨[], [i.refNullType]⟩ := by
  have numeric : Numeric.Operation.ofOpcode Opcode.refNull = none :=
    Numeric.Operation.eq_none_of_le (by decide)
  unfold signature
  simp only [is, numeric]
  exact refuse_eq_ok_iff.mpr ⟨by simp [reference], rfl⟩

private theorem signature_of_refFunc (is : i.opcode = Opcode.refFunc)
    (inside : i.refFuncIndex.toNat < ctx.funcs.length) (declared : i.refFuncIndex ∈ ctx.declared) :
    ctx.signature i = .ok ⟨[], [.funcref]⟩ := by
  have numeric : Numeric.Operation.ofOpcode Opcode.refFunc = none :=
    Numeric.Operation.eq_none_of_le (by decide)
  unfold signature
  simp only [is, numeric]
  exact bind_eq_ok_iff.mpr ⟨_, entry_eq_ok_iff.mpr (List.getElem?_eq_getElem inside),
    refuse_eq_ok_iff.mpr ⟨by simp [declared], rfl⟩⟩

private theorem signature_of_misc {misc : MiscOp} (is : i.opcode = Opcode.misc)
    (known : MiscOp.ofCode i.misc.1 = some misc) (typed : MiscTyped ctx i.misc.2 misc type) :
    ctx.signature i = .ok type := by
  have numeric : Numeric.Operation.ofOpcode Opcode.misc = none :=
    Numeric.Operation.eq_none_of_le (by decide)
  unfold signature
  simp only [is, numeric]
  exact (miscSignature_of_ofCode known).mpr typed

private theorem signature_of_vector {vector : VectorOp} (is : i.opcode = Opcode.vector)
    (known : VectorOp.ofCode i.vector.sub = some vector)
    (typed : VectorTyped ctx i.vector vector type) : ctx.signature i = .ok type := by
  have numeric : Numeric.Operation.ofOpcode Opcode.vector = none :=
    Numeric.Operation.eq_none_of_le (by decide)
  unfold signature
  simp only [is, numeric]
  exact (vectorSignature_of_ofCode known).mpr typed

private theorem signature_of_plainTyped (typed : PlainTyped ctx i type) :
    ctx.signature i = .ok type := by
  cases typed
  case numeric known =>
    unfold signature
    simp only [known]
    rfl
  case load known load memory aligned => exact signature_of_access false known load memory aligned
  case store known store memory aligned => exact signature_of_access true known store memory aligned
  case i32Const is | i64Const is | f32Const is | f64Const is | nop is =>
    unfold signature
    rw [is]
    rfl
  case call is found =>
    unfold signature
    rw [is]
    exact entry_eq_ok_iff.mpr found
  case callIndirect is found func known => exact signature_of_callIndirect is found func known
  case selectTyped is one =>
    unfold signature
    rw [is]
    simp only [one]
    rfl
  case localGet is known | localSet is known | localTee is known =>
    unfold signature
    rw [is]
    exact bind_eq_ok_iff.mpr ⟨_, localType_eq_ok_iff.mpr known, rfl⟩
  case globalGet is found | tableGet is found | tableSet is found =>
    unfold signature
    rw [is]
    exact bind_eq_ok_iff.mpr ⟨_, entry_eq_ok_iff.mpr found, rfl⟩
  case globalSet is found mutable => exact signature_of_globalSet is found mutable
  case memorySize is some | memoryGrow is some =>
    unfold signature
    rw [is]
    exact bind_eq_ok_iff.mpr ⟨(), needMemory_eq_ok_iff.mpr some, rfl⟩
  case refNull is reference => exact signature_of_refNull is reference
  case refFunc is inside declared => exact signature_of_refFunc is inside declared
  case misc is known typed => exact signature_of_misc is known typed
  case vector is known typed => exact signature_of_vector is known typed

end Computing

/-- The signature that is computed for an instruction is the one that the relation
gives it. -/
theorem signature_eq_ok_iff {i : Instruction} {type : FuncType} :
    ctx.signature i = .ok type ↔ PlainTyped ctx i type :=
  ⟨plainTyped_of_signature, signature_of_plainTyped⟩

/-- The instructions that have no signature but are typed all the same. -/
def special : List UInt8 :=
  [Opcode.unreachable, Opcode.block, Opcode.loop, Opcode.ifElse, Opcode.br, Opcode.brIf,
    Opcode.brTable, Opcode.ret, Opcode.drop, Opcode.select, Opcode.refIsNull]

theorem not_special_of_plainTyped {i : Instruction} {type : FuncType}
    (typed : PlainTyped ctx i type) : i.opcode ∉ special := by
  intro special
  have known := signature_of_plainTyped typed
  have numeric : Numeric.Operation.ofOpcode Opcode.refIsNull = none :=
    Numeric.Operation.eq_none_of_le (by decide)
  unfold signature at known
  simp only [Context.special, List.mem_cons, List.not_mem_nil, or_false] at special
  rcases special with is | is | is | is | is | is | is | is | is | is | is
  all_goals
    rw [is] at known
    try simp only [numeric] at known
    cases known

end Context

end Typing

end WasmMachine
