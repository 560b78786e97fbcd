/-
# Index spaces and the bounds of the checks

The checks of a module look things up under two kinds of bounds: the length of an index space,
and the number of imports of a kind.  The two agree for functions.  Of the other kinds an import
that does not say what it asks for is counted and has no place in the space, so that the space
is shorter than the count.

The first value of a global is the only place where this matters.  It may read as many globals
as there are imported ones, and the entry is then taken from the space without a look at its
length.  So checking a module looks past the end of a list exactly when a first value comes to
read a global between the two bounds.  When every imported global says what it is, the two
bounds agree and the checks always come to a verdict.
-/

import WasmMachine.Proofs.Safety.Instantiation
import WasmMachine.Proofs.Typing.Lookups

namespace WasmMachine

open Typing

namespace Typing

variable {α β : Type} {ctx : Context} {readable : Nat}

/-! ## Constant expressions -/

/-- An instruction that reads a global which counts as readable and is not listed. -/
structure ReadsUnlisted (ctx : Context) (readable : Nat) (i : Instruction) : Prop where
  reads : i.opcode = Opcode.globalGet
  unlisted : ctx.globals.length ≤ i.globalIndex.toNat
  counted : i.globalIndex.toNat < readable

/-- A constant expression that comes to such an instruction: everything in front of it is
constant. -/
def ComesToUnlisted (ctx : Context) (readable : Nat) (expr : List Instruction) : Prop :=
  ∃ before i after, expr = before ++ i :: after ∧
    (∀ earlier ∈ before, ∃ type, constantType ctx readable earlier = .ok type) ∧
    ReadsUnlisted ctx readable i

/-- Reading a global is the only constant that looks past a list. -/
theorem decides_constantType_iff {i : Instruction} :
    Decides (constantType ctx readable i) ↔ ¬ ReadsUnlisted ctx readable i := by
  unfold constantType
  split
  case h_7 is =>
    dsimp only
    split
    · next late =>
        have within : ¬ ReadsUnlisted ctx readable i :=
          fun past => absurd past.counted (Nat.not_lt.mpr late)
        simp [within]
    · next early =>
        split
        · next missing =>
            have past : ReadsUnlisted ctx readable i :=
              ⟨is, List.getElem?_eq_none_iff.mp missing, Nat.lt_of_not_le early⟩
            simp [past]
        · next global found =>
            obtain ⟨inside, -⟩ := List.getElem?_eq_some_iff.mp found
            have within : ¬ ReadsUnlisted ctx readable i :=
              fun past => absurd inside (Nat.not_lt.mpr past.unlisted)
            simp [within]
  case h_9 other _ =>
    have within : ¬ ReadsUnlisted ctx readable i := fun past => other past.reads
    simp [within]
  all_goals
    next is =>
      have within : ¬ ReadsUnlisted ctx readable i := fun past =>
        absurd (is.symm.trans past.reads) (by decide)
      simp [within]

/-- Of several checks the first that does not accept decides whether they come to a verdict. -/
theorem not_decides_mapM_iff {f : α → Except Violation β} {items : List α} :
    ¬ Decides (items.mapM f) ↔ ∃ before a after, items = before ++ a :: after ∧
      (∀ b ∈ before, ∃ c, f b = .ok c) ∧ ¬ Decides (f a) := by
  induction items with
  | nil => simp
  | cons first rest ih =>
      have head : Decides ((first :: rest).mapM f) ↔
          Decides (f first) ∧ ∀ b, f first = .ok b → Decides (rest.mapM f) := by
        simp [List.mapM_cons]
      constructor
      · intro past
        by_cases accepted : ∃ b, f first = .ok b
        · obtain ⟨b, ran⟩ := accepted
          have later : ¬ Decides (rest.mapM f) := fun decides =>
            past (head.mpr ⟨ran ▸ .ok b, fun _ _ => decides⟩)
          obtain ⟨before, a, after, rfl, accepted, past⟩ := ih.mp later
          exact ⟨first :: before, a, after, rfl,
            List.forall_mem_cons.mpr ⟨⟨b, ran⟩, accepted⟩, past⟩
        · refine ⟨[], first, rest, rfl, by simp, fun decides => past (head.mpr ⟨decides, ?_⟩)⟩
          exact fun b ran => absurd ⟨b, ran⟩ accepted
      · rintro ⟨before, a, after, same, accepted, past⟩ decides
        obtain ⟨here, others⟩ := head.mp decides
        cases before with
        | nil =>
            cases same
            exact past here
        | cons _ before =>
            cases same
            obtain ⟨⟨b, ran⟩, accepted⟩ := List.forall_mem_cons.mp accepted
            exact ih.mpr ⟨before, a, after, rfl, accepted, past⟩ (others b ran)

theorem decides_checkConstant_iff {expr : List Instruction} (want : ValType) :
    Decides (checkConstant ctx expr want readable) ↔ ¬ ComesToUnlisted ctx readable expr := by
  have only : Decides (checkConstant ctx expr want readable) ↔
      Decides (expr.mapM (constantType ctx readable)) := by
    simp [checkConstant]
  rw [only, ← not_iff_not, not_decides_mapM_iff, not_not]
  simp only [decides_constantType_iff, not_not, ComesToUnlisted]

/-- Under the length of the index space a constant expression gets a verdict. -/
theorem decides_checkConstant {expr : List Instruction} {want : ValType}
    (listed : readable ≤ ctx.globals.length) :
    Decides (checkConstant ctx expr want readable) := by
  rw [decides_checkConstant_iff]
  rintro ⟨_, _, _, -, -, past⟩
  exact absurd past.counted (Nat.not_lt.mpr (Nat.le_trans listed past.unlisted))

/-! ## Items -/

theorem mem_violations {x : Except Violation Unit} {v : Violation} :
    v ∈ violations x ↔ x = .error v := by
  cases x with
  | ok u => simp [violations]
  | error v' => simp [violations, eq_comm]

theorem mem_rejectionsOf {item : Nat → Item} {check : Nat → α → List Violation} {items : List α}
    {r : Rejection} : r ∈ rejectionsOf item check items ↔
      ∃ i a, items[i]? = some a ∧ r.item = item i ∧ r.violation ∈ check i a := by
  simp only [rejectionsOf, List.mem_flatMap, List.mem_map, Prod.exists,
    List.mk_mem_zipIdx_iff_getElem?]
  constructor
  · rintro ⟨a, i, found, v, mem, rfl⟩
    exact ⟨i, a, found, rfl, mem⟩
  · rintro ⟨i, a, found, same, mem⟩
    exact ⟨a, i, found, r.violation, mem, by rw [← same]⟩

theorem decides_elementViolations {e : Element} {v : Violation}
    (mem : v ∈ elementViolations ctx e) : v.kind ≠ .lookup := by
  have constant {expr : List Instruction} {want : ValType} :
      Decides (checkConstant ctx expr want ctx.globals.length) :=
    decides_checkConstant (Nat.le_refl _)
  have entries (mem : v ∈ violations (e.exprList.forM fun expr =>
      checkConstant ctx expr e.type ctx.globals.length)) : v.kind ≠ .lookup :=
    Decides.forM (fun _ _ => constant) v (mem_violations.mp mem)
  unfold elementViolations at mem
  dsimp only at mem
  split at mem
  · split at mem
    · cases List.mem_singleton.mp mem
      simp
    · split at mem
      · cases List.mem_singleton.mp mem
        simp
      · rcases List.mem_append.mp mem with mem | mem
        · exact constant v (mem_violations.mp mem)
        · exact entries mem
  · exact entries mem

theorem decides_dataViolations {d : DataSegment} {v : Violation}
    (mem : v ∈ dataViolations ctx d) : v.kind ≠ .lookup := by
  unfold dataViolations at mem
  split at mem
  · split at mem
    · cases List.mem_singleton.mp mem
      simp
    · exact decides_checkConstant (Nat.le_refl _) v (mem_violations.mp mem)
  · cases mem

theorem decides_bodyViolations {index : Nat} {body : FuncBody} {v : Violation}
    (inside : index < ctx.funcs.length) (mem : v ∈ bodyViolations ctx index body) :
    v.kind ≠ .lookup := by
  unfold bodyViolations at mem
  rw [List.getElem?_eq_getElem inside] at mem
  exact decides_checkBody _ _ v (mem_violations.mp mem)

end Typing

namespace Module

variable (m : Module)

/-- The number of imports of a kind that do not say what they ask for. -/
def undescribed {α : Type} (kind : ExternKind) (part : ImportDesc → Option α) : Nat :=
  m.imports.countP fun i => i.desc.kind == kind && (part i.desc).isNone

/-- The imports of a kind that have a place in its index space, and those that have none. -/
theorem length_filterMap_add_undescribed {α : Type} (kind : ExternKind)
    (part : ImportDesc → Option α) :
    (m.imports.filterMap fun i => if i.desc.kind == kind then part i.desc else none).length +
      m.undescribed kind part = m.importCount kind := by
  unfold undescribed importCount
  induction m.imports with
  | nil => rfl
  | cons i rest ih =>
      by_cases same : i.desc.kind = kind
      · cases described : part i.desc with
        | none => simp [same, described] at ih ⊢; omega
        | some x => simp [same, described] at ih ⊢; omega
      · simp [same] at ih ⊢; omega

/-- The lengths of the index spaces of a module, against the counts of its imports and
definitions. -/
structure SpacesAccounted : Prop where
  funcs : (Context.ofModule m).funcs.length = m.funcCount
  tables : (Context.ofModule m).tables.length + m.undescribed .table (·.table) = m.tableCount
  memories : (Context.ofModule m).memories.length + m.undescribed .memory (·.memory) =
    m.memoryCount
  globals : (Context.ofModule m).globals.length + m.undescribed .global (·.global) =
    m.globalCount

theorem spacesAccounted : m.SpacesAccounted := by
  have tables := m.length_filterMap_add_undescribed .table (·.table)
  have memories := m.length_filterMap_add_undescribed .memory (·.memory)
  have globals := m.length_filterMap_add_undescribed .global (·.global)
  refine ⟨Link.length_funcs_ofModule m, ?_, ?_, ?_⟩
  · simp only [Context.ofModule, tableCount, List.length_append]
    omega
  · simp only [Context.ofModule, memoryCount, List.length_append]
    omega
  · simp only [Context.ofModule, globalCount, List.length_append, List.length_map]
    omega

variable {m}

/-- Among the rejections only that of a first value can be a look past a list. -/
theorem exists_global_of_lookup (ok : m.checkStructure = .ok ()) {r : Rejection}
    (mem : r ∈ m.rejections) (past : r.violation.kind = .lookup) :
    ∃ g ∈ m.globals, ComesToUnlisted (.ofModule m) (m.importCount .global) g.init := by
  simp only [rejections, List.mem_append, mem_rejectionsOf] at mem
  rcases mem with ((⟨i, g, found, -, mem⟩ | ⟨i, e, found, -, mem⟩) | ⟨i, d, found, -, mem⟩) |
    ⟨i, body, found, -, mem⟩
  · refine ⟨g, List.mem_of_getElem? found, ?_⟩
    by_contra never
    exact (decides_checkConstant_iff _).mpr never r.violation (mem_violations.mp mem) past
  · exact absurd past (decides_elementViolations mem)
  · exact absurd past (decides_dataViolations mem)
  · obtain ⟨inside, -⟩ := List.getElem?_eq_some_iff.mp found
    have counted := length_code_of_checkStructure ok
    have spaces := m.spacesAccounted.funcs
    have within : m.importCount .func + i < (Context.ofModule m).funcs.length := by
      rw [spaces, funcCount]
      omega
    exact absurd past (decides_bodyViolations within mem)

theorem overreaches_iff_exists : m.overreaches = true ↔
    m.checkStructure = .ok () ∧ ∃ r ∈ m.rejections, r.violation.kind = .lookup := by
  unfold overreaches
  split
  · next stopped => simp [stopped]
  · next structured => simp [structured, List.any_eq_true]

/-- A first value that comes to read an unlisted global is rejected for it. -/
theorem exists_lookup_of_global {g : Global} (mem : g ∈ m.globals)
    (past : ComesToUnlisted (.ofModule m) (m.importCount .global) g.init) :
    ∃ r ∈ m.rejections, r.violation.kind = .lookup := by
  obtain ⟨i, found⟩ := List.getElem?_of_mem mem
  have undecided := (decides_checkConstant_iff g.type.type).not.mpr (not_not.mpr past)
  simp only [Decides, not_forall, not_not] at undecided
  obtain ⟨v, stopped, kind⟩ := undecided
  refine ⟨⟨.global (m.importCount .global + i), v⟩, ?_, kind⟩
  have listed : (⟨.global (m.importCount .global + i), v⟩ : Rejection) ∈
      rejectionsOf (fun i => .global (m.importCount .global + i))
        (fun _ (g : Global) =>
          violations (checkConstant (.ofModule m) g.init g.type.type (m.importCount .global)))
        m.globals :=
    mem_rejectionsOf.mpr ⟨i, g, found, rfl, mem_violations.mpr stopped⟩
  exact List.mem_append_left _ (List.mem_append_left _ (List.mem_append_left _ listed))

/-- Where every imported global says what it is, checking a module comes to a verdict. -/
theorem overreaches_eq_false (described : m.undescribed .global (·.global) = 0) :
    m.overreaches = false := by
  rw [Bool.eq_false_iff, ne_eq, overreaches_iff_exists]
  rintro ⟨structured, r, mem, past⟩
  obtain ⟨g, -, -, i, -, -, -, unlisted⟩ := exists_global_of_lookup structured mem past
  have spaces := m.spacesAccounted.globals
  have short := unlisted.unlisted
  have counted := unlisted.counted
  rw [globalCount] at spaces
  omega

/-- Checking a module looks past the end of a list exactly when the first value of a global
comes to read a global that counts as imported and has no place in the index space. The other
lookups are in range, whatever the module holds, and the index spaces fall short of the counts
by the imports that do not say what they ask for. -/
theorem overreaches_iff (m : Module) : m.SpacesAccounted ∧
    (m.overreaches = true ↔ m.checkStructure = .ok () ∧
      ∃ g ∈ m.globals, ComesToUnlisted (.ofModule m) (m.importCount .global) g.init) := by
  refine ⟨m.spacesAccounted, ?_⟩
  rw [overreaches_iff_exists]
  constructor
  · rintro ⟨structured, r, mem, past⟩
    exact ⟨structured, exists_global_of_lookup structured mem past⟩
  · rintro ⟨structured, g, mem, past⟩
    exact ⟨structured, exists_lookup_of_global mem past⟩

/-- Two imported globals that do not say what they are, and a global whose first value is the
second of them. -/
def vagueModule : Module where
  imports :=
    [⟨"m", "a", ⟨.global, 0, none, none, none⟩⟩, ⟨"m", "b", ⟨.global, 0, none, none, none⟩⟩]
  globals := [⟨⟨.i32, false⟩, [.node Opcode.globalGet (some (.globalIndex 1)) [] []]⟩]

/-- Its structure is in order, and checking it looks past the end of the index space. -/
theorem overreaches_vagueModule :
    vagueModule.checkStructure = .ok () ∧ vagueModule.overreaches = true :=
  ⟨rfl, rfl⟩

end Module

end WasmMachine
