/-
# Checked modules

What instantiation relies on: the facts about a module that hold because it was decoded
from bytes, and those that hold because it was validated.
-/

import WasmMachine.Proofs.Module.RoundTrip
import WasmMachine.Proofs.Safety.Known
import WasmMachine.Proofs.Typing.Soundness
import WasmMachine.Typing.Module

namespace WasmMachine

open Typing

namespace Module

/-! ## Index spaces -/

/-- The types of the imported tables. -/
def importedTables (m : Module) : List TableType :=
  m.imports.filterMap fun i => if i.desc.kind == .table then i.desc.table else none

/-- What a decoded and validated module is known to be. Of its parts, types mean
something, indices are in range, and code and constant expressions are typed. -/
structure Checked (m : Module) : Prop where
  types : ∀ type ∈ m.types, type.Known
  imports : ∀ i ∈ m.imports, i.desc.Writable
  funcs : ∀ index ∈ m.funcs, index.toNat < m.types.length
  bodies : m.funcs.length = m.code.length
  tables : ∀ t ∈ m.tables, t.elem.isRef
  globals : ∀ g ∈ m.globals, g.type.type.isValid ∧ Instruction.allWellFormed g.init ∧
    checkConstant (Context.ofModule m) g.init g.type.type (m.importCount .global) = .ok ()
  entries : ∀ e ∈ m.elements, Element.Entries e.type e.funcs e.exprs
  elementFuncs : ∀ e ∈ m.elements, ∀ index ∈ e.funcList, index.toNat < m.funcCount
  elementExprs : ∀ e ∈ m.elements, ∀ expr ∈ e.exprList,
    checkConstant (Context.ofModule m) expr e.type (Context.ofModule m).globals.length = .ok ()
  elementTables : ∀ e ∈ m.elements, e.mode = .active →
    ∃ table, (Context.ofModule m).tables[e.table.toNat]? = some table ∧ table.elem = e.type
  code : ∀ i body, m.code[i]? = some body → Instruction.allWellFormed body.body ∧
    (∀ t ∈ body.localTypes, t.isValid) ∧
    ∃ type, (Context.ofModule m).funcs[m.importCount .func + i]? = some type ∧
      FunctionTyped ((Context.ofModule m).forFunction type body.localTypes) body.body
  dataCount : (Context.ofModule m).dataCount = m.data.length

/-! ## Validation -/

theorem reject_eq_ok {bad : Bool} {fault : StructureError} {u : Unit}
    (ok : reject bad fault = .ok u) : bad = false := by
  unfold reject at ok
  cases bad with
  | false => rfl
  | true => cases ok

theorem forM_eq_ok {ε α : Type} {check : α → Except ε PUnit} {items : List α} {u : PUnit}
    (ok : items.forM check = .ok u) : ∀ a ∈ items, check a = .ok () := by
  induction items with
  | nil => exact fun _ mem => nomatch mem
  | cons item rest ih =>
      obtain ⟨_, first, others⟩ := bind_eq_ok_iff.mp ok
      intro a mem
      rcases List.mem_cons.mp mem with rfl | mem
      · exact first
      · exact ih others a mem

theorem checkEach_eq_ok {α : Type} {check : Nat → α → Except StructureError Unit}
    {items : List α} {u : Unit} (ok : checkEach check items = .ok u) :
    ∀ a ∈ items, ∃ i, check i a = .ok () := by
  intro a mem
  obtain ⟨i, found⟩ := List.getElem?_of_mem mem
  exact ⟨i, forM_eq_ok ok (a, i) (List.mk_mem_zipIdx_iff_getElem?.mpr found)⟩

variable {m : Module}

theorem faults_of_validate (ok : m.validate = .ok ()) : m.faults = [] := by
  unfold validate at ok
  cases listed : m.faults with
  | nil => rfl
  | cons first rest =>
      rw [listed] at ok
      cases rest <;> cases ok

/-- A module without faults has its structure in order and no rejected items. -/
theorem parts_of_validate (ok : m.validate = .ok ()) :
    m.checkStructure = .ok () ∧ m.rejections = [] := by
  have none := faults_of_validate ok
  unfold faults at none
  split at none
  · cases none
  · next structured =>
      exact ⟨structured, List.map_eq_nil_iff.mp none⟩

theorem rejectionsOf_eq_nil {α : Type} {item : Nat → Item} {check : Nat → α → List Violation}
    {items : List α} (none : rejectionsOf item check items = []) {i : Nat} {a : α}
    (found : items[i]? = some a) : check i a = [] := by
  unfold rejectionsOf at none
  rw [List.flatMap_eq_nil_iff] at none
  exact List.map_eq_nil_iff.mp (none (a, i) (List.mk_mem_zipIdx_iff_getElem?.mpr found))

theorem violations_eq_nil {x : Except Violation Unit} (none : violations x = []) : x = .ok () := by
  cases x with
  | ok u => rfl
  | error v => cases none

theorem exprs_of_elementViolations {ctx : Context} {e : Element}
    (none : elementViolations ctx e = []) :
    ∀ expr ∈ e.exprList, checkConstant ctx expr e.type ctx.globals.length = .ok () := by
  have entries : violations (e.exprList.forM fun expr =>
      checkConstant ctx expr e.type ctx.globals.length) = [] := by
    unfold elementViolations at none
    simp only at none
    split at none
    · split at none
      · cases none
      · split at none
        · cases none
        · exact (List.append_eq_nil_iff.mp none).2
    · exact none
  exact forM_eq_ok (violations_eq_nil entries)

theorem table_of_elementViolations {ctx : Context} {e : Element}
    (none : elementViolations ctx e = []) (active : e.mode = .active) :
    ∃ table, ctx.tables[e.table.toNat]? = some table ∧ table.elem = e.type := by
  unfold elementViolations at none
  simp only [active, if_true] at none
  split at none
  · cases none
  · next table found =>
      split at none
      · cases none
      · next same => exact ⟨table, found, not_not.mp same⟩

theorem offset_of_elementViolations {ctx : Context} {e : Element}
    (none : elementViolations ctx e = []) (active : e.mode = .active) :
    checkConstant ctx e.offset .i32 ctx.globals.length = .ok () := by
  unfold elementViolations at none
  simp only [active, if_true] at none
  split at none
  · cases none
  · split at none
    · cases none
    · exact violations_eq_nil (List.append_eq_nil_iff.mp none).1

theorem parts_of_dataViolations {ctx : Context} {d : DataSegment}
    (none : dataViolations ctx d = []) (active : d.mode = .active) :
    d.memory.toNat < ctx.memories.length ∧
      checkConstant ctx d.offset .i32 ctx.globals.length = .ok () := by
  unfold dataViolations at none
  simp only [active, if_true] at none
  split at none
  · cases none
  · next inside => exact ⟨Nat.lt_of_not_le inside, violations_eq_nil none⟩

theorem typed_of_bodyViolations {ctx : Context} {i : Nat} {body : FuncBody}
    (none : bodyViolations ctx i body = []) :
    ∃ type, ctx.funcs[i]? = some type ∧
      FunctionTyped (ctx.forFunction type body.localTypes) body.body := by
  unfold bodyViolations at none
  split at none
  · cases none
  · next type found => exact ⟨type, found, functionTyped_of_checkBody (violations_eq_nil none)⟩

/-- What the checks of its items have established about a validated module. -/
structure ValidatedItems (m : Module) : Prop where
  globals : ∀ g ∈ m.globals,
    checkConstant (Context.ofModule m) g.init g.type.type (m.importCount .global) = .ok ()
  elementExprs : ∀ e ∈ m.elements, ∀ expr ∈ e.exprList,
    checkConstant (Context.ofModule m) expr e.type (Context.ofModule m).globals.length = .ok ()
  elementTables : ∀ e ∈ m.elements, e.mode = .active →
    ∃ table, (Context.ofModule m).tables[e.table.toNat]? = some table ∧ table.elem = e.type
  elementOffsets : ∀ e ∈ m.elements, e.mode = .active →
    checkConstant (Context.ofModule m) e.offset .i32 (Context.ofModule m).globals.length = .ok ()
  data : ∀ d ∈ m.data, d.mode = .active →
    d.memory.toNat < (Context.ofModule m).memories.length ∧
      checkConstant (Context.ofModule m) d.offset .i32 (Context.ofModule m).globals.length = .ok ()
  code : ∀ i body, m.code[i]? = some body →
    ∃ type, (Context.ofModule m).funcs[m.importCount .func + i]? = some type ∧
      FunctionTyped ((Context.ofModule m).forFunction type body.localTypes) body.body

theorem validatedItems_of_validate (ok : m.validate = .ok ()) : m.ValidatedItems := by
  have accepted := (parts_of_validate ok).2
  unfold rejections at accepted
  simp only [List.append_eq_nil_iff] at accepted
  obtain ⟨⟨⟨globals, elements⟩, data⟩, code⟩ := accepted
  have element {e : Element} (mem : e ∈ m.elements) :
      elementViolations (Context.ofModule m) e = [] := by
    obtain ⟨i, found⟩ := List.getElem?_of_mem mem
    exact rejectionsOf_eq_nil elements found
  refine {
    globals := fun g mem => ?_
    elementExprs := fun e mem => exprs_of_elementViolations (element mem)
    elementTables := fun e mem => table_of_elementViolations (element mem)
    elementOffsets := fun e mem => offset_of_elementViolations (element mem)
    data := fun d mem => ?_
    code := fun i body found => typed_of_bodyViolations (rejectionsOf_eq_nil code found) }
  · obtain ⟨i, found⟩ := List.getElem?_of_mem mem
    exact violations_eq_nil (rejectionsOf_eq_nil globals found)
  · obtain ⟨i, found⟩ := List.getElem?_of_mem mem
    exact parts_of_dataViolations (rejectionsOf_eq_nil data found)

/-- All checks that a module of sound structure has passed, in the order in which they are
made. -/
theorem parts_of_checkStructure (ok : m.checkStructure = .ok ()) :
    m.checkTypeIndices = .ok () ∧ m.checkFuncIndices = .ok () ∧ m.checkTableIndices = .ok () ∧
      m.checkMemoryIndices = .ok () ∧ m.checkGlobalIndices = .ok () ∧
      m.checkExportNames = .ok () ∧ m.checkStart = .ok () ∧ m.checkDataCount = .ok () ∧
      m.checkCodeCount = .ok () ∧ m.checkLimits = .ok () := by
  obtain ⟨_, types, ok⟩ := bind_eq_ok_iff.mp ok
  obtain ⟨_, funcs, ok⟩ := bind_eq_ok_iff.mp ok
  obtain ⟨_, tables, ok⟩ := bind_eq_ok_iff.mp ok
  obtain ⟨_, memories, ok⟩ := bind_eq_ok_iff.mp ok
  obtain ⟨_, globals, ok⟩ := bind_eq_ok_iff.mp ok
  obtain ⟨_, names, ok⟩ := bind_eq_ok_iff.mp ok
  obtain ⟨_, start, ok⟩ := bind_eq_ok_iff.mp ok
  obtain ⟨_, segments, ok⟩ := bind_eq_ok_iff.mp ok
  obtain ⟨_, bodies, limits⟩ := bind_eq_ok_iff.mp ok
  exact ⟨types, funcs, tables, memories, globals, names, start, segments, bodies, limits⟩

theorem length_code_of_checkStructure (ok : m.checkStructure = .ok ()) :
    m.code.length = m.funcs.length := by
  obtain ⟨-, -, -, -, -, -, -, -, bodies, -⟩ := parts_of_checkStructure ok
  simpa using reject_eq_ok bodies

/-- The index checks that a module of sound structure has passed, and the checks of its
start function and of its bounds. -/
structure SoundIndices (m : Module) : Prop where
  types : ∃ u, m.checkTypeIndices = .ok u
  funcs : ∃ u, m.checkFuncIndices = .ok u
  tables : ∃ u, m.checkTableIndices = .ok u
  memories : ∃ u, m.checkMemoryIndices = .ok u
  globals : ∃ u, m.checkGlobalIndices = .ok u
  start : ∃ u, m.checkStart = .ok u
  limits : ∃ u, m.checkLimits = .ok u

theorem soundIndices_of_checkStructure (ok : m.checkStructure = .ok ()) : m.SoundIndices := by
  obtain ⟨types, funcs, tables, memories, globals, -, start, -, -, limits⟩ :=
    parts_of_checkStructure ok
  exact ⟨⟨_, types⟩, ⟨_, funcs⟩, ⟨_, tables⟩, ⟨_, memories⟩, ⟨_, globals⟩, ⟨_, start⟩,
    ⟨_, limits⟩⟩

theorem bounds_of_checkMemoryType {origin : Origin} {i : Nat} {t : MemoryType} {u : Unit}
    (ok : checkMemoryType origin i t = .ok u) : t.limits.min.toNat ≤ maxPages ∧
      ∀ most, t.limits.max = some most → most.toNat ≤ maxPages ∧ t.limits.min ≤ most := by
  obtain ⟨_, few, ok⟩ := bind_eq_ok_iff.mp ok
  have few : ¬ maxPages < t.limits.min.toNat := by simpa using reject_eq_ok few
  refine ⟨Nat.not_lt.mp few, fun most stated => ?_⟩
  rw [stated] at ok
  obtain ⟨_, few, order⟩ := bind_eq_ok_iff.mp ok
  have few : ¬ maxPages < most.toNat := by simpa using reject_eq_ok few
  have order : ¬ most < t.limits.min := by simpa using reject_eq_ok order
  exact ⟨Nat.not_lt.mp few, UInt64.not_lt.mp order⟩

/-- A table has references as entries, and nothing keeps its bounds small. -/
theorem bounds_of_checkTableType {origin : Origin} {i : Nat} {t : TableType} {u : Unit}
    (ok : checkTableType origin i t = .ok u) :
    t.elem.isRef ∧ ∀ most, t.limits.max = some most → t.limits.min ≤ most := by
  obtain ⟨_, reference, ok⟩ := bind_eq_ok_iff.mp ok
  refine ⟨by simpa using reject_eq_ok reference, fun most stated => ?_⟩
  rw [stated] at ok
  have order : ¬ most < t.limits.min := by simpa using reject_eq_ok ok
  exact UInt64.not_lt.mp order

/-- The parts of the check of function indices. -/
theorem parts_of_checkFuncIndices {u : Unit} (ok : m.checkFuncIndices = .ok u) :
    (∃ u, checkEach (fun i (e : Element) =>
        checkEach (fun j func => reject (m.funcCount ≤ func.toNat) (.elementFunc i j func))
          e.funcList) m.elements = .ok u) ∧
      ∃ u, m.checkExports .func m.funcCount .exportFunc = .ok u := by
  unfold checkFuncIndices at ok
  split at ok
  · obtain ⟨_, -, ok⟩ := bind_eq_ok_iff.mp ok
    obtain ⟨u, elements, exports⟩ := bind_eq_ok_iff.mp ok
    exact ⟨⟨u, elements⟩, ⟨_, exports⟩⟩
  · obtain ⟨u, elements, exports⟩ := bind_eq_ok_iff.mp ok
    exact ⟨⟨u, elements⟩, ⟨_, exports⟩⟩

/-- The indices of types and functions that a module of sound structure names. -/
theorem indices_of_checkStructure (ok : m.checkStructure = .ok ()) :
    (∀ index ∈ m.funcs, index.toNat < m.types.length) ∧
      ∀ e ∈ m.elements, ∀ index ∈ e.funcList, index.toNat < m.funcCount := by
  have sound := soundIndices_of_checkStructure ok
  constructor
  · obtain ⟨_, types⟩ := sound.types
    obtain ⟨_, types, -⟩ := bind_eq_ok_iff.mp types
    intro index mem
    obtain ⟨i, passed⟩ := checkEach_eq_ok types index mem
    simpa using reject_eq_ok passed
  · obtain ⟨_, funcs⟩ := sound.funcs
    obtain ⟨_, elements⟩ := (parts_of_checkFuncIndices funcs).1
    intro e mem index listed
    obtain ⟨i, passed⟩ := checkEach_eq_ok elements e mem
    obtain ⟨j, passed⟩ := checkEach_eq_ok passed index listed
    simpa using reject_eq_ok passed

/-- Counting down along the imports finds the same as an index into those of functions. -/
theorem importedTypeIndex?_eq (imports : List Import) (index : Nat) :
    importedTypeIndex? imports index =
      ((imports.filter fun i => i.desc.kind == .func).map (·.desc.typeIndex))[index]? := by
  induction imports generalizing index with
  | nil => rfl
  | cons imp rest ih =>
      unfold importedTypeIndex?
      by_cases func : imp.desc.kind == .func
      · rw [if_pos func, List.filter_cons, if_pos func, List.map_cons]
        cases index with
        | zero => rfl
        | succ index => exact ih index
      · rw [if_neg func, List.filter_cons, if_neg func]
        exact ih index

/-- The imports of functions stand in front of the functions of the module. -/
theorem funcType?_eq (m : Module) (index : UInt32) :
    m.funcType? index =
      (m.funcTypeIndices[index.toNat]?).bind fun type => m.types[type.toNat]? := by
  have imported : ((m.imports.filter fun i => i.desc.kind == .func).map
      (·.desc.typeIndex)).length = m.importCount .func := by
    rw [List.length_map, importCount, List.countP_eq_length_filter]
  unfold funcType? funcTypeIndices
  by_cases front : index.toNat < m.importCount .func
  · simp only [if_pos front, importedTypeIndex?_eq]
    rw [List.getElem?_append_left (imported ▸ front)]
    rfl
  · simp only [if_neg front]
    rw [List.getElem?_append_right (imported ▸ Nat.not_lt.mp front), imported]
    rfl

/-- A module of sound structure and its context give each function the same type. -/
theorem funcType?_eq_context (ok : m.checkStructure = .ok ()) (index : UInt32) :
    m.funcType? index = (Context.ofModule m).funcs[index.toNat]? := by
  obtain ⟨_, types⟩ := (soundIndices_of_checkStructure ok).types
  obtain ⟨_, funcs, imports⟩ := bind_eq_ok_iff.mp types
  rw [funcType?_eq]
  show _ = (m.funcTypeIndices.map (typeAt m.types))[index.toNat]?
  rw [List.getElem?_map]
  cases place : m.funcTypeIndices[index.toNat]? with
  | none => rfl
  | some i =>
      have inside : i.toNat < m.types.length := by
        rcases List.mem_append.mp (List.mem_of_getElem? place) with imported | declared
        · obtain ⟨imp, mem, rfl⟩ := List.mem_map.mp imported
          obtain ⟨listed, is⟩ := List.mem_filter.mp mem
          obtain ⟨_, passed⟩ := checkEach_eq_ok imports imp listed
          simpa [is] using reject_eq_ok passed
        · obtain ⟨_, passed⟩ := checkEach_eq_ok funcs i declared
          simpa using reject_eq_ok passed
      rw [Option.bind_some, Option.map_some, typeAt, List.getElem?_eq_getElem inside,
        Option.getD_some]

theorem checked_of_decode {bytes : List UInt8} (decoded : decode bytes = .ok m)
    (validated : m.validate = .ok ()) : m.Checked := by
  obtain ⟨r, ran⟩ := Decoder.decodeWith_eq_ok_iff.mp decoded
  obtain ⟨read, -, -, writable, consistent, -⟩ := Decoder.Yields.module_ true _ _ _ ran
  have items := validatedItems_of_validate validated
  obtain ⟨funcs, elementFuncs⟩ := indices_of_checkStructure (parts_of_validate validated).1
  refine {
    types := fun type mem => ?_
    imports := fun i mem => (writable.imports.fine i mem).desc
    funcs := funcs
    bodies := consistent.bodies
    tables := fun t mem => (writable.tables.fine t mem).reference
    globals := fun g mem => ?_
    entries := fun e mem => (writable.elements.fine e mem).entries
    elementFuncs := elementFuncs
    elementExprs := items.elementExprs
    elementTables := items.elementTables
    code := fun i body found => ?_
    dataCount := ?_ }
  · have fine := writable.types.fine type mem
    exact ⟨fine.params.valid, fine.results.valid⟩
  · have fine := writable.globals.fine g mem
    exact ⟨fine.type, fine.init.wellFormed, items.globals g mem⟩
  · have fine := writable.code.fine body (List.mem_of_getElem? found)
    refine ⟨fine.body.wellFormed, ?_, items.code i body found⟩
    intro t mem
    obtain ⟨group, mem, repeated⟩ := List.mem_flatMap.mp mem
    rw [(List.mem_replicate.mp repeated).2]
    exact fine.locals.valid group mem
  · show (m.dataCount.map (·.toNat)).getD m.data.length = m.data.length
    cases counted : m.dataCount with
    | none => rfl
    | some n => exact consistent.dataCount n counted

/-! ## Contexts -/

theorem known_typeAt (known : ∀ type ∈ m.types, type.Known) (index : UInt32) :
    (typeAt m.types index).Known := by
  unfold typeAt
  cases found : m.types[index.toNat]? with
  | none => exact ⟨by simp, by simp⟩
  | some type => exact known type (List.mem_of_getElem? found)

/-- All types in the context of a function of a checked module mean something. -/
theorem Checked.known_forFunction (checked : m.Checked) {type : FuncType} {locals : List ValType}
    (known : type.Known) (valid : ∀ t ∈ locals, t.isValid) :
    ((Context.ofModule m).forFunction type locals).Known where
  types := checked.types
  funcs := by
    intro type mem
    obtain ⟨index, -, rfl⟩ := List.mem_map.mp mem
    exact known_typeAt checked.types index
  tables := by
    intro t mem
    rcases List.mem_append.mp mem with mem | mem
    · obtain ⟨i, mem, found⟩ := List.mem_filterMap.mp mem
      cases h : i.desc with | mk kind typeIndex table memory global =>
      have writable := checked.imports i mem
      rw [h] at writable found
      cases writable with
      | table fine =>
          cases found
          exact fine.reference
      | _ => cases found
    · exact checked.tables t mem
  globals := by
    intro g mem
    rcases List.mem_append.mp mem with mem | mem
    · obtain ⟨i, mem, found⟩ := List.mem_filterMap.mp mem
      cases h : i.desc with | mk kind typeIndex table memory global =>
      have writable := checked.imports i mem
      rw [h] at writable found
      cases writable with
      | global fine =>
          cases found
          exact fine
      | _ => cases found
    · obtain ⟨defined, inModule, rfl⟩ := List.mem_map.mp mem
      exact (checked.globals defined inModule).1
  locals := by
    intro t mem
    rcases List.mem_append.mp mem with mem | mem
    · exact known.params t mem
    · exact valid t mem
  results := known.results

end Module

end WasmMachine
