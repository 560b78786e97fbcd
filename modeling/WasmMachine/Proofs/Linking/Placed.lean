/-
# Everything has its place

What the later stages of instantiation rely on.  Of a decoded and validated module every
export and every active segment names something of the module, the offset of every active
segment is a constant expression for a 32-bit integer, and the start function takes and
gives nothing.
-/

import WasmMachine.Proofs.Safety.Instantiation

namespace WasmMachine

open Typing

/-- The four kinds are the only ones that a binary can name. -/
theorem ExternKind.eq_of_code_le {kind : ExternKind} (known : kind.code ≤ 3) :
    kind = .func ∨ kind = .table ∨ kind = .memory ∨ kind = .global := by
  obtain ⟨code⟩ := kind
  have few : code.toNat = 0 ∨ code.toNat = 1 ∨ code.toNat = 2 ∨ code.toNat = 3 := by
    have le : code.toNat ≤ 3 := known
    omega
  rcases few with is | is | is | is
  · exact .inl (congrArg ExternKind.mk (UInt8.toNat_inj.mp is))
  · exact .inr (.inl (congrArg ExternKind.mk (UInt8.toNat_inj.mp is)))
  · exact .inr (.inr (.inl (congrArg ExternKind.mk (UInt8.toNat_inj.mp is))))
  · exact .inr (.inr (.inr (congrArg ExternKind.mk (UInt8.toNat_inj.mp is))))

/-- The number of things of one kind that a context knows. -/
def Typing.Context.count (ctx : Context) (kind : ExternKind) : Nat :=
  match kind with
  | .func => ctx.funcs.length
  | .table => ctx.tables.length
  | .memory => ctx.memories.length
  | .global => ctx.globals.length
  | _ => 0

/-- An instance has an address for each of them. -/
theorem Shape.Serves.size_addresses {σ : Shape} {inst : ModuleInstance} {ctx : Context}
    (serves : σ.Serves inst ctx) (kind : ExternKind) :
    (inst.addresses kind).size = ctx.count kind := by
  unfold ModuleInstance.addresses Context.count
  split
  · exact serves.funcs.length_eq
  · exact serves.tables.length_eq.trans (List.length_map _)
  · exact serves.memories.length_eq.trans (List.length_map _)
  · exact serves.globals.length_eq
  · simp_all

namespace Module

/-- A constant expression for an offset. -/
structure OffsetTyped (m : Module) (expr : List Instruction) : Prop where
  wellFormed : Instruction.allWellFormed expr
  typed : checkConstant (.ofModule m) expr .i32 (Context.ofModule m).globals.length = .ok ()

/-- What a decoded and validated module names in its exports, its active segments and as
its start function. -/
structure Placed (m : Module) : Prop where
  exports : ∀ e ∈ m.exports, e.index.toNat < (Context.ofModule m).count e.kind
  elements : ∀ e ∈ m.elements, e.mode = .active → m.OffsetTyped e.offset
  memories : ∀ d ∈ m.data, d.mode = .active → d.memory.toNat < (Context.ofModule m).memories.length
  data : ∀ d ∈ m.data, d.mode = .active → m.OffsetTyped d.offset
  start : ∀ index, m.start = some index →
    (Context.ofModule m).funcs[index.toNat]? = some ⟨[], []⟩

variable {m : Module}

/-! ## Exports -/

theorem index_of_checkExports {kind : ExternKind} {count : Nat}
    {fault : Nat → String → UInt32 → StructureError} {u : Unit}
    (ok : m.checkExports kind count fault = .ok u) {e : Export} (mem : e ∈ m.exports)
    (same : e.kind = kind) : e.index.toNat < count := by
  obtain ⟨i, passed⟩ := checkEach_eq_ok ok e mem
  simpa [same] using reject_eq_ok passed

theorem length_tables_ofModule (imports : ∀ i ∈ m.imports, i.desc.Writable) :
    (Context.ofModule m).tables.length = m.tableCount := by
  have imported : (m.imports.filterMap fun i =>
      if i.desc.kind == .table then i.desc.table else none).length = m.importCount .table := by
    refine Link.length_filterMap_imports fun i mem same => ?_
    have desc := imports i mem
    obtain ⟨mod, name, desc⟩ := i
    cases desc with
    | table _ => rfl
    | _ => cases same
  exact List.length_append.trans (congrArg (· + m.tables.length) imported)

theorem length_memories_ofModule (imports : ∀ i ∈ m.imports, i.desc.Writable) :
    (Context.ofModule m).memories.length = m.memoryCount := by
  have imported : (m.imports.filterMap fun i =>
      if i.desc.kind == .memory then i.desc.memory else none).length = m.importCount .memory := by
    refine Link.length_filterMap_imports fun i mem same => ?_
    have desc := imports i mem
    obtain ⟨mod, name, desc⟩ := i
    cases desc with
    | memory _ => rfl
    | _ => cases same
  exact List.length_append.trans (congrArg (· + m.memories.length) imported)

theorem length_globals_ofModule (imports : ∀ i ∈ m.imports, i.desc.Writable) :
    (Context.ofModule m).globals.length = m.globalCount := by
  refine List.length_append.trans ?_
  rw [List.length_map]
  exact congrArg (· + m.globals.length) (Link.length_globals_ofImports imports m.types)

/-- An export names something that the module has. -/
theorem index_of_soundIndices (sound : m.SoundIndices) (imports : ∀ i ∈ m.imports, i.desc.Writable)
    {e : Export} (mem : e ∈ m.exports) (known : e.kind.code ≤ 3) :
    e.index.toNat < (Context.ofModule m).count e.kind := by
  rcases ExternKind.eq_of_code_le known with same | same | same | same
  · obtain ⟨_, funcs⟩ := sound.funcs
    obtain ⟨_, exports⟩ := (parts_of_checkFuncIndices funcs).2
    rw [same]
    exact Nat.lt_of_lt_of_eq (index_of_checkExports exports mem same)
      (Link.length_funcs_ofModule m).symm
  · obtain ⟨_, tables⟩ := sound.tables
    obtain ⟨_, -, exports⟩ := bind_eq_ok_iff.mp tables
    rw [same]
    exact Nat.lt_of_lt_of_eq (index_of_checkExports exports mem same)
      (length_tables_ofModule imports).symm
  · obtain ⟨_, memories⟩ := sound.memories
    obtain ⟨_, -, memories⟩ := bind_eq_ok_iff.mp memories
    obtain ⟨_, -, exports⟩ := bind_eq_ok_iff.mp memories
    rw [same]
    exact Nat.lt_of_lt_of_eq (index_of_checkExports exports mem same)
      (length_memories_ofModule imports).symm
  · obtain ⟨_, exports⟩ := sound.globals
    rw [same]
    exact Nat.lt_of_lt_of_eq (index_of_checkExports exports mem same)
      (length_globals_ofModule imports).symm

/-! ## The start function -/

theorem start_of_checkStart {u : Unit} (ok : m.checkStart = .ok u) {index : UInt32}
    (is : m.start = some index) :
    (Context.ofModule m).funcs[index.toNat]? = some ⟨[], []⟩ := by
  unfold checkStart at ok
  simp only [is] at ok
  split at ok
  · cases ok
  · next type found =>
      have empty := reject_eq_ok ok
      obtain ⟨params, results⟩ := type
      simp only [Bool.or_eq_false_iff, Bool.not_eq_false', List.isEmpty_iff] at empty
      obtain ⟨rfl, rfl⟩ := empty
      rw [funcType?_eq] at found
      obtain ⟨declared, place, known⟩ := Option.bind_eq_some_iff.mp found
      show (m.funcTypeIndices.map (typeAt m.types))[index.toNat]? = _
      rw [List.getElem?_map, place, Option.map_some, typeAt, known, Option.getD_some]

theorem placed_of_decode {bytes : List UInt8} (decoded : decode bytes = .ok m)
    (validated : m.validate = .ok ()) : m.Placed := by
  obtain ⟨r, ran⟩ := Decoder.decodeWith_eq_ok_iff.mp decoded
  obtain ⟨read, -, -, writable, consistent, -⟩ := Decoder.Yields.module_ true _ _ _ ran
  have items := validatedItems_of_validate validated
  have sound := soundIndices_of_checkStructure (parts_of_validate validated).1
  refine {
    exports := fun e mem => ?_
    elements := fun e mem active => ?_
    memories := fun d mem active => (items.data d mem active).1
    data := fun d mem active => ?_
    start := fun index is => ?_ }
  · exact index_of_soundIndices sound (fun i mem => (writable.imports.fine i mem).desc) mem
      (writable.exports.fine e mem).kind
  · exact ⟨((writable.elements.fine e mem).offset active).wellFormed,
      items.elementOffsets e mem active⟩
  · exact ⟨((writable.data.fine d mem).offset active).wellFormed, (items.data d mem active).2⟩
  · obtain ⟨_, start⟩ := sound.start
    exact start_of_checkStart start is

end Module

end WasmMachine
