/-
# Which modules come back from their encoding

A module that was built by hand may hold what the binary format cannot express.  The
checks of a module keep most of that out, but not all: the bounds of tables and the
offsets of memory accesses may be wider than the 32 bits that are written of them,
constant expressions and segments may have null references and entries of a type that
is no reference type, an import may leave out what it asks for, and nothing looks at
how long a section becomes.

A module without any of these comes back from its bytes, and it is the only one that
does: `Expressible` is exactly what the checks leave open.  What is asked of the tree
beforehand, `Complete`, is about the parts that the writer reads without a look: kinds
and modes are known ones, value types mean something, every instruction carries what
its opcode asks for, fields that are not used are empty, and bodies are within the two
limits of the reader.
-/

import WasmMachine.Proofs.Safety.Checked
import WasmMachine.Proofs.Typing.Spelling

namespace WasmMachine

open Typing

/-! ## What is asked of a tree -/

/-- An import without the fields that its kind does not use. The one that it uses may be
missing as well. -/
inductive ImportDesc.Complete : ImportDesc → Prop
  | func (type : UInt32) : Complete ⟨.func, type, none, none, none⟩
  | table (t : Option TableType) : Complete ⟨.table, 0, t, none, none⟩
  | memory (t : Option MemoryType) : Complete ⟨.memory, 0, none, t, none⟩
  | global {t : Option GlobalType} : (∀ type, t = some type → type.type.isValid) →
      Complete ⟨.global, 0, none, none, t⟩

/-- A segment of a known mode that lists functions or holds expressions. Only an active
one has a place. -/
structure Element.Complete (e : Element) : Prop where
  mode : e.mode = .active ∨ e.mode = .passive ∨ e.mode = .declarative
  unplaced : e.mode ≠ .active → e.table = 0 ∧ e.offset = []
  offset : Instruction.allComplete e.offset
  entries : (e.funcs.isSome ∧ e.exprs = none ∧ e.type = .funcref) ∨
    (e.funcs = none ∧ e.exprs.isSome)
  exprs : ∀ expr ∈ e.exprList, Instruction.allComplete expr

/-- A function body within the limits of the reader. -/
structure FuncBody.Complete (b : FuncBody) : Prop where
  locals : ∀ g ∈ b.locals, g.type.isValid
  total : LocalGroup.total b.locals ≤ maxLocals
  body : Instruction.allComplete b.body
  shallow : Instruction.depthOf b.body ≤ maxNesting

/-- A data segment of a known mode. Only an active one has a place. -/
structure DataSegment.Complete (d : DataSegment) : Prop where
  mode : d.mode = .active ∨ d.mode = .passive
  unplaced : d.mode ≠ .active → d.memory = 0 ∧ d.offset = []
  offset : Instruction.allComplete d.offset

/-- A tree of which every part has what its kind, its mode or its opcode asks for. -/
structure Module.Complete (m : Module) : Prop where
  types : ∀ type ∈ m.types, type.Known
  imports : ∀ i ∈ m.imports, i.desc.Complete
  globals : ∀ g ∈ m.globals, g.type.type.isValid ∧ Instruction.allComplete g.init
  exports : ∀ e ∈ m.exports, e.kind.code ≤ 3
  elements : ∀ e ∈ m.elements, e.Complete
  code : ∀ b ∈ m.code, b.Complete
  data : ∀ d ∈ m.data, d.Complete

/-! ## What the format can express -/

/-- An import says what it asks for. -/
def ImportDesc.described (d : ImportDesc) : Bool :=
  match d.kind with
  | .table => d.table.isSome
  | .memory => d.memory.isSome
  | .global => d.global.isSome
  | _ => true

/-- Bounds of 32 bits. -/
structure Limits.Narrow (l : Limits) : Prop where
  min : l.min.toNat < 2 ^ 32
  max : ∀ most, l.max = some most → most.toNat < 2 ^ 32

namespace Module

/-- All constant expressions of a module. -/
def constants (m : Module) : List (List Instruction) :=
  m.globals.map (·.init) ++ m.elements.flatMap (fun e => e.offset :: e.exprList)
    ++ m.data.map (·.offset)

/-- The contents of all sections, the empty ones included. -/
def payloads (m : Module) : List (List UInt8) :=
  [Encode.vector Encode.funcType m.types, Encode.vector Encode.importItem m.imports,
    Encode.vector Encode.u32 m.funcs, Encode.vector Encode.tableType m.tables,
    Encode.vector Encode.memoryType m.memories, Encode.vector Encode.global m.globals,
    Encode.vector Encode.exportItem m.exports, Encode.vector Encode.element m.elements,
    Encode.vector Encode.sizedBody m.code, Encode.vector Encode.dataSegment m.data]
    ++ m.customs.map Encode.customSection

/-- What the checks of a module leave open although the format cannot express its
opposite. -/
structure Expressible (m : Module) : Prop where
  imports : ∀ i ∈ m.imports, i.desc.described
  tables : ∀ t ∈ m.importedTables ++ m.tables, t.limits.Narrow
  offsets : ∀ b ∈ m.code, Instruction.allShortOffsets b.body
  nulls : ∀ expr ∈ m.constants, ∀ i ∈ expr, i.opcode = Opcode.refNull → i.refNullType.isRef
  elements : ∀ e ∈ m.elements, e.type.isRef
  sizes : ∀ payload ∈ m.payloads, payload.length < 2 ^ 32

variable {m : Module}

theorem mem_constants {expr : List Instruction} : expr ∈ m.constants ↔
    (∃ g ∈ m.globals, expr = g.init) ∨ (∃ e ∈ m.elements, expr = e.offset ∨ expr ∈ e.exprList) ∨
      ∃ d ∈ m.data, expr = d.offset := by
  simp only [constants, List.mem_append, List.mem_map, List.mem_flatMap, List.mem_cons, or_assoc,
    eq_comm (b := expr)]

/-! ## What can be written is expressible -/

theorem described_of_writable {d : ImportDesc} (writable : d.Writable) : d.described := by
  cases writable <;> rfl

theorem narrow_of_writable {l : Limits} (writable : l.Writable) : l.Narrow :=
  ⟨writable.min_lt, writable.max_lt⟩

theorem isRef_of_writable {is : List Instruction} (writable : Instruction.Writable is) :
    ∀ i ∈ is, i.opcode = Opcode.refNull → i.refNullType.isRef := fun _ mem =>
  Instruction.isRef_of_refNull (Instruction.wellFormed_of_mem writable.wellFormed mem)

theorem isRef_of_entries {type : ValType} {funcs : Option (List UInt32)}
    {exprs : Option (List (List Instruction))} (entries : Element.Entries type funcs exprs) :
    type.isRef ∧ ∀ expr ∈ exprs.getD [], Instruction.Writable expr := by
  cases entries with
  | funcs _ => exact ⟨rfl, fun _ mem => nomatch mem⟩
  | exprs reference _ fine => exact ⟨reference, fine⟩

theorem nulls_of_writable (writable : m.canonical.Writable) : ∀ expr ∈ m.constants,
    ∀ i ∈ expr, i.opcode = Opcode.refNull → i.refNullType.isRef := by
  intro expr constant
  rcases mem_constants.mp constant with ⟨g, mem, rfl⟩ | ⟨e, mem, place⟩ | ⟨d, mem, rfl⟩
  · exact isRef_of_writable (writable.globals.fine g mem).init
  · have fine := writable.elements.fine _ (List.mem_map_of_mem mem)
    rcases place with rfl | entry
    · by_cases active : e.mode = .active
      · exact isRef_of_writable (fine.offset active)
      · have none : e.offset = [] := (fine.unplaced active).2
        rw [none]
        exact fun _ mem => nomatch mem
    · exact isRef_of_writable ((isRef_of_entries fine.entries).2 expr entry)
  · have fine := writable.data.fine _ (List.mem_map_of_mem mem)
    by_cases active : d.mode = .active
    · exact isRef_of_writable (fine.offset active)
    · have none : d.offset = [] := (fine.unplaced active).2
      rw [none]
      exact fun _ mem => nomatch mem

theorem sizes_of_writable (writable : m.canonical.Writable) :
    ∀ payload ∈ m.payloads, payload.length < 2 ^ 32 := by
  obtain ⟨elements, data⟩ := m.vector_canonical
  intro payload mem
  simp only [payloads, List.mem_append, List.mem_cons, List.not_mem_nil, or_false,
    List.mem_map] at mem
  rcases mem with (rfl | rfl | rfl | rfl | rfl | rfl | rfl | rfl | rfl | rfl) | ⟨c, mem, rfl⟩
  · exact writable.types.fits
  · exact writable.imports.fits
  · exact writable.funcs.fits
  · exact writable.tables.fits
  · exact writable.memories.fits
  · exact writable.globals.fits
  · exact writable.exports.fits
  · exact elements ▸ writable.elements.fits
  · exact writable.code.fits
  · exact data ▸ writable.data.fits
  · exact (writable.customs c mem).fits

theorem tables_of_writable (writable : m.canonical.Writable) :
    ∀ t ∈ m.importedTables ++ m.tables, t.limits.Narrow := by
  intro t mem
  rcases List.mem_append.mp mem with mem | mem
  · obtain ⟨i, mem, found⟩ := List.mem_filterMap.mp mem
    have desc := (writable.imports.fine i mem).desc
    obtain ⟨mod, name, desc'⟩ := i
    cases desc with
    | table fine =>
        cases found
        exact narrow_of_writable fine.limits
    | _ => cases found
  · exact narrow_of_writable (writable.tables.fine t mem).limits

theorem expressible_of_writable (writable : m.canonical.Writable) : m.Expressible where
  imports i mem := described_of_writable (writable.imports.fine i mem).desc
  tables := tables_of_writable writable
  offsets b mem := Instruction.allShortOffsets_of_allWellFormed b.body
    (writable.code.fine b mem).body.wellFormed
  nulls := nulls_of_writable writable
  elements _ mem :=
    (isRef_of_entries (writable.elements.fine _ (List.mem_map_of_mem mem)).entries).1
  sizes := sizes_of_writable writable

/-! ## Parts of short sections -/

end Module

section

variable {α : Type} {write : α → List UInt8} {Fine : α → Prop} {as : List α}

/-- In a short section there are few items and each of them is short. -/
theorem ListFits.of_short (some : ∀ a, write a ≠ [])
    (short : (Encode.vector write as).length < 2 ^ 32)
    (fine : ∀ a ∈ as, (write a).length < 2 ^ 32 → Fine a) : ListFits write Fine as where
  few := Nat.lt_of_le_of_lt (Decoder.count_le_vector some as) short
  fine a mem := fine a mem (Nat.lt_of_le_of_lt (Decoder.length_le_vector mem) short)
  fits := short

end

theorem nameFits_of_short {s : String} (short : (Encode.name s).length < 2 ^ 32) : nameFits s := by
  simp only [Encode.name, List.length_append] at short
  unfold nameFits
  omega

theorem ValType.Writable.of_short {ts : List ValType}
    (short : (Encode.valTypes ts).length < 2 ^ 32) (valid : ∀ t ∈ ts, t.isValid) :
    ValType.Writable ts :=
  ⟨Nat.lt_of_le_of_lt (Decoder.count_le_vector (fun _ => by simp) ts) short, valid⟩

theorem FuncType.Known.writable {type : FuncType} (known : type.Known)
    (short : (Encode.funcType type).length < 2 ^ 32) : type.Writable := by
  simp only [Encode.funcType, List.length_cons, List.length_append] at short
  exact ⟨.of_short (by omega) known.params, .of_short (by omega) known.results⟩

theorem Export.writable_of_short {e : Export} (known : e.kind.code ≤ 3)
    (short : (Encode.exportItem e).length < 2 ^ 32) : e.Writable := by
  simp only [Encode.exportItem, List.length_append] at short
  exact ⟨nameFits_of_short (by omega), known⟩

theorem CustomSection.writable_of_short {c : CustomSection}
    (short : (Encode.customSection c).length < 2 ^ 32) : c.Writable := by
  refine ⟨nameFits_of_short ?_, short⟩
  simp only [Encode.customSection, List.length_append] at short
  omega

theorem Element.Complete.writable {e : Element} (complete : e.Complete) (reference : e.type.isRef)
    (offset : e.mode = .active → Instruction.Writable e.offset)
    (exprs : ∀ expr ∈ e.exprList, Instruction.Writable expr)
    (short : (Encode.element e).length < 2 ^ 32) : e.Writable := by
  refine ⟨complete.mode, offset, complete.unplaced, ?_⟩
  have entries := complete.entries
  obtain ⟨mode, flags, table, type, place, funcs, items⟩ := e
  simp only [Encode.element, List.length_append] at short
  rcases entries with ⟨some, rfl, rfl⟩ | ⟨rfl, some⟩
  · obtain ⟨funcs, rfl⟩ := Option.isSome_iff_exists.mp some
    have enough := Decoder.count_le_vector Decoder.Codec.u32_ne_nil funcs
    have short : _ + (Encode.vector Encode.u32 funcs).length < 2 ^ 32 := short
    exact .funcs (by omega)
  · obtain ⟨items, rfl⟩ := Option.isSome_iff_exists.mp some
    have enough := Decoder.count_le_vector Decoder.Codec.expr_ne_nil items
    have short : _ + (Encode.vector Encode.expr items).length < 2 ^ 32 := short
    exact .exprs reference (by omega) exprs

theorem DataSegment.Complete.writable {d : DataSegment} (complete : d.Complete)
    (offset : d.mode = .active → Instruction.Writable d.offset)
    (short : (Encode.dataSegment d).length < 2 ^ 32) : d.Writable := by
  refine ⟨complete.mode, offset, complete.unplaced, ?_⟩
  simp only [Encode.dataSegment, List.length_append] at short
  omega

theorem FuncBody.Complete.writable {ctx : Context} {b : FuncBody} (complete : b.Complete)
    (typed : FunctionTyped ctx b.body) (offsets : Instruction.allShortOffsets b.body)
    (short : (Encode.sizedBody b).length < 2 ^ 32) : b.Writable := by
  have fits : (Encode.funcBody b).length < 2 ^ 32 := by
    have short : (Encode.length _ ++ Encode.funcBody b).length < 2 ^ 32 := short
    rw [List.length_append] at short
    omega
  have parts := fits
  simp only [Encode.funcBody, Encode.expr, List.length_append] at parts
  have some (g : LocalGroup) : Encode.u32 g.count ++ [g.type.code] ≠ [] := by simp
  have enough := Decoder.count_le_vector some b.locals
  obtain ⟨typed, -⟩ := typed
  refine ⟨⟨by omega, complete.total, complete.locals⟩, ⟨?_, complete.shallow⟩, fits⟩
  exact allWellFormed_of_typed b.body typed complete.body offsets (by omega)

/-! ## Checked parts -/

namespace Module

variable {m : Module}

theorem writable_of_checkMemoryType {origin : Origin} {i : Nat} {t : MemoryType} {u : Unit}
    (ok : checkMemoryType origin i t = .ok u) : t.limits.Writable := by
  have pages : maxPages < 2 ^ 32 := by decide
  obtain ⟨few, stated⟩ := bounds_of_checkMemoryType ok
  exact ⟨Nat.lt_of_le_of_lt few pages,
    fun most is => Nat.lt_of_le_of_lt (stated most is).1 pages, fun most is => (stated most is).2⟩

theorem writable_of_checkTableType {origin : Origin} {i : Nat} {t : TableType} {u : Unit}
    (ok : checkTableType origin i t = .ok u) (narrow : t.limits.Narrow) : t.Writable := by
  obtain ⟨reference, ordered⟩ := bounds_of_checkTableType ok
  exact ⟨reference, narrow.min, narrow.max, ordered⟩

theorem writable_of_checkImportLimits {i : Nat} {imp : Import} {u : Unit}
    (ok : checkImportLimits i imp = .ok u) (complete : imp.desc.Complete)
    (described : imp.desc.described)
    (narrow : ∀ t, imp.desc.kind = .table → imp.desc.table = some t → t.limits.Narrow) :
    imp.desc.Writable := by
  obtain ⟨mod, name, desc⟩ := imp
  cases complete with
  | func type => exact .func type
  | table t =>
      obtain ⟨t, rfl⟩ := Option.isSome_iff_exists.mp described
      exact .table (writable_of_checkTableType ok (narrow t rfl rfl))
  | memory t =>
      obtain ⟨t, rfl⟩ := Option.isSome_iff_exists.mp described
      obtain ⟨_, ok, -⟩ := bind_eq_ok_iff.mp ok
      exact .memory (writable_of_checkMemoryType ok)
  | global valid =>
      obtain ⟨t, rfl⟩ := Option.isSome_iff_exists.mp described
      exact .global (valid t rfl)

/-- The numbers of bodies and of data segments of a module of sound structure. -/
theorem consistent_of_checkStructure (ok : m.checkStructure = .ok ()) : m.Consistent := by
  obtain ⟨-, -, -, -, -, -, -, segments, -⟩ := parts_of_checkStructure ok
  refine ⟨(length_code_of_checkStructure ok).symm, fun n counted => ?_⟩
  unfold checkDataCount at segments
  rw [counted] at segments
  simpa using reject_eq_ok segments

/-! ## What is expressible can be written -/

namespace Expressible

/-- Constant expressions of a checked tree can be written, if their nulls are references. -/
theorem writable_constant {expr : List Instruction} {want : ValType} {readable : Nat}
    (expressible : m.Expressible) (constant : expr ∈ m.constants)
    (complete : Instruction.allComplete expr)
    (checked : checkConstant (Context.ofModule m) expr want readable = .ok ()) :
    Instruction.Writable expr := by
  obtain ⟨wellFormed, flat⟩ :=
    wellFormed_of_checkConstant checked complete (expressible.nulls expr constant)
  exact ⟨wellFormed, flat ▸ Nat.zero_le _⟩

theorem writable_import (expressible : m.Expressible) (complete : m.Complete) {u : Unit}
    (ok : checkEach checkImportLimits m.imports = .ok u) {imp : Import} (mem : imp ∈ m.imports)
    (short : (Encode.importItem imp).length < 2 ^ 32) : imp.Writable := by
  obtain ⟨i, passed⟩ := checkEach_eq_ok ok imp mem
  simp only [Encode.importItem, List.length_append] at short
  refine ⟨nameFits_of_short (by omega), nameFits_of_short (by omega), ?_⟩
  refine writable_of_checkImportLimits passed (complete.imports imp mem)
    (expressible.imports imp mem) fun t same stated => expressible.tables t ?_
  exact List.mem_append_left _ (List.mem_filterMap.mpr ⟨imp, mem, by simp [same, stated]⟩)

theorem writable_global (expressible : m.Expressible) (complete : m.Complete)
    (items : m.ValidatedItems) {g : Global} (mem : g ∈ m.globals) : g.Writable := by
  obtain ⟨valid, init⟩ := complete.globals g mem
  exact ⟨valid, expressible.writable_constant (mem_constants.mpr (.inl ⟨g, mem, rfl⟩)) init
    (items.globals g mem)⟩

theorem writable_element (expressible : m.Expressible) (complete : m.Complete)
    (items : m.ValidatedItems) {e : Element} (mem : e ∈ m.elements)
    (short : (Encode.element e).length < 2 ^ 32) : e.Writable := by
  have parts := complete.elements e mem
  refine parts.writable (expressible.elements e mem) (fun active => ?_) (fun expr entry => ?_) short
  · exact expressible.writable_constant (mem_constants.mpr (.inr (.inl ⟨e, mem, .inl rfl⟩)))
      parts.offset (items.elementOffsets e mem active)
  · exact expressible.writable_constant (mem_constants.mpr (.inr (.inl ⟨e, mem, .inr entry⟩)))
      (parts.exprs expr entry) (items.elementExprs e mem expr entry)

theorem writable_body (expressible : m.Expressible) (complete : m.Complete)
    (items : m.ValidatedItems) {b : FuncBody} (mem : b ∈ m.code)
    (short : (Encode.sizedBody b).length < 2 ^ 32) : b.Writable := by
  obtain ⟨i, found⟩ := List.getElem?_of_mem mem
  obtain ⟨type, -, typed⟩ := items.code i b found
  exact (complete.code b mem).writable typed (expressible.offsets b mem) short

theorem writable_data (expressible : m.Expressible) (complete : m.Complete)
    (items : m.ValidatedItems) {d : DataSegment} (mem : d ∈ m.data)
    (short : (Encode.dataSegment d).length < 2 ^ 32) : d.Writable := by
  have parts := complete.data d mem
  refine parts.writable (fun active => ?_) short
  exact expressible.writable_constant (mem_constants.mpr (.inr (.inr ⟨d, mem, rfl⟩)))
    parts.offset (items.data d mem active).2

/-- What is complete, validated and expressible can be written. -/
theorem writable (expressible : m.Expressible) (complete : m.Complete)
    (validated : m.validate = .ok ()) : m.Writable := by
  have items := validatedItems_of_validate validated
  obtain ⟨_, limits⟩ := (soundIndices_of_checkStructure (parts_of_validate validated).1).limits
  obtain ⟨_, imports, limits⟩ := bind_eq_ok_iff.mp limits
  obtain ⟨_, memories, tables⟩ := bind_eq_ok_iff.mp limits
  have short {payload : List UInt8} (mem : payload ∈ m.payloads) := expressible.sizes payload mem
  exact {
    types := .of_short Encode.funcType_ne_nil (short (by simp [payloads]))
      fun type mem => (complete.types type mem).writable
    imports := .of_short Encode.importItem_ne_nil (short (by simp [payloads]))
      fun _ mem => expressible.writable_import complete imports mem
    funcs := .of_short Decoder.Codec.u32_ne_nil (short (by simp [payloads]))
      fun _ _ _ => trivial
    tables := .of_short Encode.tableType_ne_nil (short (by simp [payloads])) fun t mem _ => by
      obtain ⟨i, passed⟩ := checkEach_eq_ok tables t mem
      exact writable_of_checkTableType passed (expressible.tables t (List.mem_append_right _ mem))
    memories := .of_short Encode.memoryType_ne_nil (short (by simp [payloads])) fun t mem _ => by
      obtain ⟨i, passed⟩ := checkEach_eq_ok memories t mem
      exact writable_of_checkMemoryType passed
    globals := .of_short Encode.global_ne_nil (short (by simp [payloads]))
      fun _ mem _ => expressible.writable_global complete items mem
    exports := .of_short Encode.exportItem_ne_nil (short (by simp [payloads]))
      fun e mem => Export.writable_of_short (complete.exports e mem)
    elements := .of_short Encode.element_ne_nil (short (by simp [payloads]))
      fun _ mem => expressible.writable_element complete items mem
    code := .of_short Encode.sizedBody_ne_nil (short (by simp [payloads]))
      fun _ mem => expressible.writable_body complete items mem
    data := .of_short Encode.dataSegment_ne_nil (short (by simp [payloads]))
      fun _ mem => expressible.writable_data complete items mem
    customs := fun c mem => CustomSection.writable_of_short
      (short (List.mem_append_right _ (List.mem_map_of_mem mem))) }

end Expressible

/-- A complete module that was validated comes back from its bytes, with the flags of its
segments picked anew, exactly when the format can express it. -/
theorem decode_encode_iff_expressible (complete : m.Complete) (validated : m.validate = .ok ()) :
    decode m.encode = .ok m.canonical ↔ m.Expressible := by
  constructor
  · intro decoded
    obtain ⟨r, ran⟩ := Decoder.decodeWith_eq_ok_iff.mp decoded
    obtain ⟨read, -, -, writable, -⟩ := Decoder.Yields.module_ true _ _ _ ran
    exact expressible_of_writable writable
  · intro expressible
    exact Decoder.decodeWith_encode true (expressible.writable complete validated)
      (consistent_of_checkStructure (parts_of_validate validated).1)

/-- A function that reads from a memory, and a table that holds it. -/
def readerModule : Module :=
  { types := [⟨[], [.i32]⟩]
    funcs := [0]
    tables := [⟨.funcref, ⟨1, some 2⟩⟩]
    memories := [⟨⟨1, none⟩⟩]
    globals := [⟨⟨.externref, false⟩, [.plain Opcode.refNull (some (.refNull .externref))]⟩]
    elements := [⟨.active, 0, 0, .funcref, [.plain Opcode.i32Const (some (.i32 0))],
      some [0], none⟩]
    code := [⟨[⟨2, .i64⟩], [.plain Opcode.i32Const (some (.i32 8)),
      .plain 0x28 (some (.memory ⟨2, 4⟩))]⟩] }

theorem expressible_readerModule : readerModule.Complete ∧ readerModule.validate = .ok () ∧
    decode readerModule.encode = .ok readerModule.canonical ∧ readerModule.Expressible := by
  have complete : readerModule.Complete := {
    types := List.forall_mem_singleton.mpr ⟨by simp, by decide⟩
    imports := by simp [readerModule]
    globals := List.forall_mem_singleton.mpr (by decide)
    exports := by simp [readerModule]
    elements := List.forall_mem_singleton.mpr
      ⟨.inl rfl, fun placed => absurd rfl placed, by decide, .inl ⟨rfl, rfl, rfl⟩,
        by simp [Element.exprList]⟩
    code := List.forall_mem_singleton.mpr ⟨by decide, by decide, by decide, by decide⟩
    data := by simp [readerModule] }
  have validated : readerModule.validate = .ok () := rfl
  have restored : decode readerModule.encode = .ok readerModule.canonical := rfl
  exact ⟨complete, validated, restored,
    (decode_encode_iff_expressible complete validated).mp restored⟩

/-- A table whose least size does not fit in 32 bits. -/
def wideTable : Module := { tables := [⟨.funcref, ⟨4294967296, none⟩⟩] }

/-- The checks let the table pass, and the writer cuts its size down to nothing. -/
theorem decode_encode_wideTable : wideTable.Complete ∧ wideTable.validate = .ok () ∧
    decode wideTable.encode = .ok { tables := [⟨.funcref, ⟨0, none⟩⟩] } ∧
      decode wideTable.encode ≠ .ok wideTable.canonical := by
  have read : decode wideTable.encode = .ok { tables := [⟨.funcref, ⟨0, none⟩⟩] } := rfl
  have complete : wideTable.Complete := by constructor <;> simp [wideTable]
  refine ⟨complete, rfl, read, ?_⟩
  rw [read]
  intro same
  injection same with same
  exact absurd (congrArg Module.tables same) (by decide)

end Module

end WasmMachine
