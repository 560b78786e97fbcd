/-
# The reports on a module

A module of sound structure is reported item by item: globals, element segments, data segments
and functions, each by index.  This module says which reports there are.  An item is reported
when one of its parts is refused, and then once, with one exception.  The offset of an active
element segment and its entries are checked one after the other whatever came out before, so a
segment is reported twice when both are refused.  Nothing else is.

A report has its item as its path, and one of the eight recognised kinds; looking past the end
of a list is no such kind, and a module where this happens gets no reports at all.  The report
on a function depends on the context of the module and on the body, and on no other item.
-/

import WasmMachine.Proofs.Typing.IndexSpaces

namespace WasmMachine

open Typing

namespace Typing

/-! ## What is refused -/

/-- An element segment of which some part is refused. -/
inductive ElementRefused (ctx : Context) (e : Element) : Prop
  | table : e.mode = .active → ctx.tables[e.table.toNat]? = none → ElementRefused ctx e
  | type {table : TableType} : e.mode = .active → ctx.tables[e.table.toNat]? = some table →
      table.elem ≠ e.type → ElementRefused ctx e
  | offset : e.mode = .active → checkConstant ctx e.offset .i32 ctx.globals.length ≠ .ok () →
      ElementRefused ctx e
  | entry {expr : List Instruction} : expr ∈ e.exprList →
      checkConstant ctx expr e.type ctx.globals.length ≠ .ok () → ElementRefused ctx e

/-- An active element segment that fits its table, with both its offset and an entry refused. -/
structure ElementRefusedTwice (ctx : Context) (e : Element) : Prop where
  active : e.mode = .active
  table : ∃ table, ctx.tables[e.table.toNat]? = some table ∧ table.elem = e.type
  offset : checkConstant ctx e.offset .i32 ctx.globals.length ≠ .ok ()
  entry : ∃ expr ∈ e.exprList, checkConstant ctx expr e.type ctx.globals.length ≠ .ok ()

/-- An active data segment of which some part is refused. -/
inductive DataRefused (ctx : Context) (d : DataSegment) : Prop
  | memory : d.mode = .active → ctx.memories.length ≤ d.memory.toNat → DataRefused ctx d
  | offset : d.mode = .active → checkConstant ctx d.offset .i32 ctx.globals.length ≠ .ok () →
      DataRefused ctx d

/-- The reports that recognise the violations, one for each kind. -/
def sentinels : List Fault :=
  [ViolationKind.noLocal, .operands, .undeclared, .label, .index, .immutable, .alignment,
    .unsupported].map fun kind => .bare Phase.validate kind.word

/-- The sorts of items in the order in which they are checked. -/
def Item.sort : Item → Nat
  | .global _ => 0
  | .element _ => 1
  | .data _ => 2
  | .func _ => 3

/-- The index of an item in its index space. -/
def Item.index : Item → Nat
  | .global index | .element index | .data index | .func index => index

/-- One item stands no later than another: its sort is checked earlier, or they are of one sort
and its index is no greater. -/
def Item.NotAfter (a b : Item) : Prop :=
  a.sort < b.sort ∨ a.sort = b.sort ∧ a.index ≤ b.index

end Typing

namespace Module

/-- An item of a module of which some part is refused. -/
inductive Fails (m : Module) : Item → Prop
  | global {i : Nat} {g : Global} : m.globals[i]? = some g →
      checkConstant (.ofModule m) g.init g.type.type (m.importCount .global) ≠ .ok () →
      m.Fails (.global (m.importCount .global + i))
  | element {i : Nat} {e : Element} : m.elements[i]? = some e →
      ElementRefused (.ofModule m) e → m.Fails (.element i)
  | data {i : Nat} {d : DataSegment} : m.data[i]? = some d →
      DataRefused (.ofModule m) d → m.Fails (.data i)
  | func {i : Nat} {body : FuncBody} : m.code[i]? = some body →
      m.checkFunctionBody i body ≠ .ok () → m.Fails (.func (m.importCount .func + i))

/-- An element segment of a module that is refused twice. -/
inductive FailsTwice (m : Module) : Item → Prop
  | element {i : Nat} {e : Element} : m.elements[i]? = some e →
      ElementRefusedTwice (.ofModule m) e → m.FailsTwice (.element i)

end Module

/-! ## Recognition -/

namespace Typing

theorem ViolationKind.word_injective : Function.Injective word := by
  intro a b same
  cases a <;> cases b <;> first | rfl | exact absurd same (by decide)

/-- A report of a violation is recognised as a report of a kind when it is of that kind. -/
theorem Rejection.isLike_bare_iff {r : Rejection} {kind : ViolationKind} :
    r.toFault.isLike (.bare Phase.validate kind.word) = true ↔ r.violation.kind = kind := by
  have compared : r.toFault.isLike (.bare Phase.validate kind.word) =
      decide ((⟨Phase.validate, r.violation.kind.word⟩ : Category) =
        ⟨Phase.validate, kind.word⟩) := by
    simp only [Rejection.toFault, Violation.toFault, Fault.under, Fault.bare, Fault.isLike,
      Fault.hasKind]
  rw [compared, decide_eq_true_iff]
  constructor
  · intro same
    exact ViolationKind.word_injective (congrArg Category.kind same)
  · rintro rfl
    rfl

/-- Every kind that is a verdict has its one sentinel. -/
theorem Rejection.existsUnique_sentinel {r : Rejection} (kind : r.violation.kind ≠ .lookup) :
    ∃! sentinel, sentinel ∈ sentinels ∧ r.toFault.isLike sentinel = true := by
  refine ⟨.bare Phase.validate r.violation.kind.word, ⟨?_, Rejection.isLike_bare_iff.mpr rfl⟩, ?_⟩
  · refine List.mem_map.mpr ⟨r.violation.kind, ?_, rfl⟩
    cases known : r.violation.kind <;> simp_all
  · rintro _ ⟨mem, like⟩
    obtain ⟨other, -, rfl⟩ := List.mem_map.mp mem
    rw [Rejection.isLike_bare_iff.mp like]

/-! ## The reports on one item -/

/-- What the rejections of one item hold against it, in order. -/
def violationsOn (rejections : List Rejection) (item : Item) : List Violation :=
  (rejections.filter (·.item = item)).map (·.violation)

variable {α : Type} {item : Nat → Item} {check : Nat → α → List Violation} {items : List α}

theorem violationsOn_append (first second : List Rejection) (target : Item) :
    violationsOn (first ++ second) target =
      violationsOn first target ++ violationsOn second target := by
  simp [violationsOn]

theorem violationsOn_eq_nil {rejections : List Rejection} {target : Item}
    (others : ∀ r ∈ rejections, r.item ≠ target) : violationsOn rejections target = [] := by
  simpa [violationsOn, List.filter_eq_nil_iff] using others

/-- Items of one sort that is not the item's own, or that do not reach its index. -/
theorem violationsOn_rejectionsOf_of_ne {target : Item}
    (others : ∀ i a, items[i]? = some a → item i ≠ target) :
    violationsOn (rejectionsOf item check items) target = [] := by
  refine violationsOn_eq_nil fun r mem => ?_
  obtain ⟨i, a, found, same, -⟩ := mem_rejectionsOf.mp mem
  exact same ▸ others i a found

/-- An item of the list has what its check has found. -/
theorem violationsOn_rejectionsOf {i : Nat} {a : α} (injective : Function.Injective item)
    (found : items[i]? = some a) :
    violationsOn (rejectionsOf item check items) (item i) = check i a := by
  -- the list is checked from any index on, so that its tail is a case of the same statement
  suffices from_ : ∀ start, violationsOn ((items.zipIdx start).flatMap fun x =>
      (check x.2 x.1).map fun v => ⟨item x.2, v⟩) (item (start + i)) = check (start + i) a by
    simpa [rejectionsOf] using from_ 0
  have own (start : Nat) (x : α) :
      violationsOn ((check start x).map fun v => ⟨item start, v⟩) (item start) = check start x := by
    rw [violationsOn, List.filter_eq_self.mpr (by simp), List.map_map]
    exact List.map_id _
  have other {start i : Nat} (x : α) (apart : start ≠ i) :
      violationsOn ((check start x).map fun v => ⟨item start, v⟩) (item i) = [] := by
    refine violationsOn_eq_nil fun r mem => ?_
    obtain ⟨v, -, rfl⟩ := List.mem_map.mp mem
    exact fun same => apart (injective same)
  induction items generalizing i with
  | nil => cases found
  | cons x rest ih =>
      intro start
      rw [List.zipIdx_cons, List.flatMap_cons, violationsOn_append]
      cases i with
      | zero =>
          cases found
          have later : violationsOn ((rest.zipIdx (start + 1)).flatMap fun x =>
              (check x.2 x.1).map fun v => ⟨item x.2, v⟩) (item start) = [] := by
            refine violationsOn_eq_nil fun r mem => ?_
            obtain ⟨⟨y, j⟩, listed, mem⟩ := List.mem_flatMap.mp mem
            obtain ⟨v, -, rfl⟩ := List.mem_map.mp mem
            have above := List.le_snd_of_mem_zipIdx listed
            exact fun same => absurd (injective same) (by omega)
          rw [Nat.add_zero, own, later, List.append_nil]
      | succ i =>
          rw [other x (by omega), List.nil_append, show start + (i + 1) = start + 1 + i by omega]
          exact ih found (start + 1)

/-- A check that fails has one violation. -/
theorem length_violations_pos_iff (x : Except Violation Unit) :
    0 < (violations x).length ↔ x ≠ .ok () := by
  cases x <;> simp [violations]

theorem length_violations_le (x : Except Violation Unit) : (violations x).length ≤ 1 := by
  cases x <;> simp [violations]

theorem forM_ne_ok_iff {check : α → Except Violation PUnit} :
    items.forM check ≠ .ok () ↔ ∃ a ∈ items, check a ≠ .ok () := by
  induction items with
  | nil => simp [List.forM_eq_forM, pure, Except.pure]
  | cons a rest ih =>
      rw [ne_eq, show (a :: rest).forM check = (check a >>= fun _ => rest.forM check) from rfl]
      cases ran : check a with
      | error v => simp [ran, bind, Except.bind]
      | ok u => simpa [ran, bind, Except.bind] using ih

/-- The entries of a segment are checked up to the first that is refused. -/
theorem length_entries_pos_iff (ctx : Context) (e : Element) :
    0 < (violations (e.exprList.forM fun expr =>
        checkConstant ctx expr e.type ctx.globals.length)).length ↔
      ∃ expr ∈ e.exprList, checkConstant ctx expr e.type ctx.globals.length ≠ .ok () :=
  (length_violations_pos_iff _).trans forM_ne_ok_iff

theorem length_elementViolations (ctx : Context) (e : Element) :
    (0 < (elementViolations ctx e).length ↔ ElementRefused ctx e) ∧
      (1 < (elementViolations ctx e).length ↔ ElementRefusedTwice ctx e) ∧
        (elementViolations ctx e).length ≤ 2 := by
  have entries := length_entries_pos_iff ctx e
  have few := length_violations_le (e.exprList.forM fun expr =>
    checkConstant ctx expr e.type ctx.globals.length)
  unfold elementViolations
  dsimp only
  generalize violations (e.exprList.forM fun expr =>
    checkConstant ctx expr e.type ctx.globals.length) = found at entries few ⊢
  by_cases active : e.mode = .active
  · rw [if_pos active]
    cases table : ctx.tables[e.table.toNat]? with
    | none =>
        refine ⟨⟨fun _ => .table active table, fun _ => Nat.one_pos⟩,
          ⟨fun two => absurd two (by simp), fun twice => ?_⟩, by simp⟩
        obtain ⟨_, there, -⟩ := twice.table
        cases table.symm.trans there
    | some t =>
        dsimp only
        by_cases same : t.elem = e.type
        · rw [if_neg (not_not.mpr same), List.length_append]
          have offset :=
            length_violations_pos_iff (checkConstant ctx e.offset .i32 ctx.globals.length)
          have less := length_violations_le (checkConstant ctx e.offset .i32 ctx.globals.length)
          refine ⟨⟨fun some => ?_, fun refused => ?_⟩, ⟨fun two => ?_, fun twice => ?_⟩, by omega⟩
          · by_cases first : checkConstant ctx e.offset .i32 ctx.globals.length = .ok ()
            · have later : 0 < found.length := by
                have none := mt offset.mp (not_not.mpr first)
                omega
              obtain ⟨expr, mem, refused⟩ := entries.mp later
              exact .entry mem refused
            · exact .offset active first
          · cases refused with
            | table _ missing => cases table.symm.trans missing
            | type _ there differs =>
                cases table.symm.trans there
                exact absurd same differs
            | offset _ refused => exact Nat.add_pos_left (offset.mpr refused) _
            | entry mem refused => exact Nat.add_pos_right _ (entries.mpr ⟨_, mem, refused⟩)
          · exact ⟨active, ⟨t, table, same⟩, offset.mp (by omega), entries.mp (by omega)⟩
          · have first := offset.mpr twice.offset
            have later := entries.mpr twice.entry
            omega
        · rw [if_pos same]
          refine ⟨⟨fun _ => .type active table same, fun _ => Nat.one_pos⟩,
            ⟨fun two => absurd two (by simp), fun twice => ?_⟩, by simp⟩
          obtain ⟨t', there, agrees⟩ := twice.table
          cases table.symm.trans there
          exact absurd agrees same
  · rw [if_neg active]
    refine ⟨⟨fun some => ?_, fun refused => ?_⟩, ⟨fun two => by omega, fun twice => ?_⟩, by omega⟩
    · obtain ⟨expr, mem, refused⟩ := entries.mp some
      exact .entry mem refused
    · cases refused with
      | table is _ => exact absurd is active
      | type is _ _ => exact absurd is active
      | offset is _ => exact absurd is active
      | entry mem refused => exact entries.mpr ⟨_, mem, refused⟩
    · exact absurd twice.active active

theorem length_dataViolations (ctx : Context) (d : DataSegment) :
    (0 < (dataViolations ctx d).length ↔ DataRefused ctx d) ∧
      (dataViolations ctx d).length ≤ 1 := by
  unfold dataViolations
  by_cases active : d.mode = .active
  · rw [if_pos active]
    by_cases missing : ctx.memories.length ≤ d.memory.toNat
    · rw [if_pos missing]
      exact ⟨⟨fun _ => .memory active missing, fun _ => Nat.one_pos⟩, Nat.le_refl 1⟩
    · rw [if_neg missing]
      refine ⟨(length_violations_pos_iff _).trans ⟨.offset active, fun refused => ?_⟩,
        length_violations_le _⟩
      cases refused with
      | memory _ is => exact absurd is missing
      | offset _ refused => exact refused
  · rw [if_neg active]
    refine ⟨⟨fun some => absurd some (by simp), fun refused => ?_⟩, by simp⟩
    cases refused with
    | memory is _ => exact absurd is active
    | offset is _ => exact absurd is active

end Typing

namespace Module

variable {m : Module} {item : Item} {vs : List Violation}

/-- What the reports on an item hold against it, in order. -/
def reportsOn (m : Module) (item : Item) : List Violation := violationsOn m.rejections item

/-- An item of a module with what its check has found. -/
inductive Finds (m : Module) : Item → List Violation → Prop
  | global {i : Nat} {g : Global} : m.globals[i]? = some g →
      m.Finds (.global (m.importCount .global + i))
        (violations (checkConstant (.ofModule m) g.init g.type.type (m.importCount .global)))
  | element {i : Nat} {e : Element} : m.elements[i]? = some e →
      m.Finds (.element i) (elementViolations (.ofModule m) e)
  | data {i : Nat} {d : DataSegment} : m.data[i]? = some d →
      m.Finds (.data i) (dataViolations (.ofModule m) d)
  | func {i : Nat} {body : FuncBody} : m.code[i]? = some body →
      m.Finds (.func (m.importCount .func + i))
        (bodyViolations (.ofModule m) (m.importCount .func + i) body)

/-- The reports on an item are what its check has found. -/
theorem reportsOn_of_finds (finds : m.Finds item vs) : m.reportsOn item = vs := by
  simp only [reportsOn, rejections, violationsOn_append]
  cases finds with
  | global found =>
      rw [violationsOn_rejectionsOf (fun i j same => by simpa using same) found,
        violationsOn_rejectionsOf_of_ne (by simp), violationsOn_rejectionsOf_of_ne (by simp),
        violationsOn_rejectionsOf_of_ne (by simp)]
      simp
  | element found =>
      rw [violationsOn_rejectionsOf_of_ne (by simp),
        violationsOn_rejectionsOf (fun _ _ => Item.element.inj) found,
        violationsOn_rejectionsOf_of_ne (by simp), violationsOn_rejectionsOf_of_ne (by simp)]
      simp
  | data found =>
      rw [violationsOn_rejectionsOf_of_ne (by simp), violationsOn_rejectionsOf_of_ne (by simp),
        violationsOn_rejectionsOf (fun _ _ => Item.data.inj) found,
        violationsOn_rejectionsOf_of_ne (by simp)]
      simp
  | func found =>
      rw [violationsOn_rejectionsOf_of_ne (by simp), violationsOn_rejectionsOf_of_ne (by simp),
        violationsOn_rejectionsOf_of_ne (by simp),
        violationsOn_rejectionsOf (fun i j same => by simpa using same) found]
      simp

/-- What is reported was found by the check of an item. -/
theorem exists_finds_of_mem {r : Rejection} (mem : r ∈ m.rejections) :
    ∃ vs, m.Finds r.item vs := by
  simp only [rejections, List.mem_append, mem_rejectionsOf] at mem
  rcases mem with ((⟨i, a, found, same, -⟩ | ⟨i, a, found, same, -⟩) | ⟨i, a, found, same, -⟩) |
    ⟨i, a, found, same, -⟩
  · exact same ▸ ⟨_, Finds.global found⟩
  · exact same ▸ ⟨_, Finds.element found⟩
  · exact same ▸ ⟨_, Finds.data found⟩
  · exact same ▸ ⟨_, Finds.func found⟩

/-- In a module of sound structure every body belongs to a function. -/
theorem bodyViolations_eq (structured : m.checkStructure = .ok ()) {i : Nat} {body : FuncBody}
    (found : m.code[i]? = some body) :
    bodyViolations (.ofModule m) (m.importCount .func + i) body =
      violations (m.checkFunctionBody i body) := by
  have counted := length_code_of_checkStructure structured
  have spaces := m.spacesAccounted.funcs
  obtain ⟨inside, -⟩ := List.getElem?_eq_some_iff.mp found
  have within : m.importCount .func + i < (Context.ofModule m).funcs.length := by
    rw [spaces, funcCount]
    omega
  simp only [bodyViolations, checkFunctionBody, List.getElem?_eq_getElem within, Option.getD_some]

theorem exists_finds_of_pos (some : 0 < (m.reportsOn item).length) :
    ∃ vs, m.Finds item vs := by
  obtain ⟨v, mem⟩ := List.exists_mem_of_length_pos some
  obtain ⟨r, mem, -⟩ := List.mem_map.mp mem
  obtain ⟨mem, is⟩ := List.mem_filter.mp mem
  obtain ⟨vs, finds⟩ := exists_finds_of_mem mem
  exact ⟨vs, of_decide_eq_true is ▸ finds⟩

/-- An item is reported when it fails. -/
theorem reportsOn_pos_iff (structured : m.checkStructure = .ok ()) :
    0 < (m.reportsOn item).length ↔ m.Fails item := by
  constructor
  · intro some
    obtain ⟨vs, finds⟩ := exists_finds_of_pos some
    rw [reportsOn_of_finds finds] at some
    cases finds with
    | global found => exact .global found ((length_violations_pos_iff _).mp some)
    | element found => exact .element found ((length_elementViolations _ _).1.mp some)
    | data found => exact .data found ((length_dataViolations _ _).1.mp some)
    | func found =>
        rw [bodyViolations_eq structured found] at some
        exact .func found ((length_violations_pos_iff _).mp some)
  · intro fails
    cases fails with
    | global found refused =>
        rw [reportsOn_of_finds (.global found)]
        exact (length_violations_pos_iff _).mpr refused
    | element found refused =>
        rw [reportsOn_of_finds (.element found)]
        exact (length_elementViolations _ _).1.mpr refused
    | data found refused =>
        rw [reportsOn_of_finds (.data found)]
        exact (length_dataViolations _ _).1.mpr refused
    | func found refused =>
        rw [reportsOn_of_finds (.func found), bodyViolations_eq structured found]
        exact (length_violations_pos_iff _).mpr refused

/-- Only element segments have more than one report. -/
theorem exists_element_of_two (structured : m.checkStructure = .ok ())
    (two : 1 < (m.reportsOn item).length) : ∃ i e, m.elements[i]? = some e ∧ item = .element i := by
  obtain ⟨vs, finds⟩ := exists_finds_of_pos (Nat.lt_of_succ_lt two)
  rw [reportsOn_of_finds finds] at two
  cases finds with
  | global found => exact absurd two (Nat.not_lt.mpr (length_violations_le _))
  | element found => exact ⟨_, _, found, rfl⟩
  | data found => exact absurd two (Nat.not_lt.mpr (length_dataViolations _ _).2)
  | func found =>
      rw [bodyViolations_eq structured found] at two
      exact absurd two (Nat.not_lt.mpr (length_violations_le _))

/-- An item is reported twice when it fails twice, and never more often. -/
theorem reportsOn_two_iff (structured : m.checkStructure = .ok ()) :
    (1 < (m.reportsOn item).length ↔ m.FailsTwice item) ∧ (m.reportsOn item).length ≤ 2 := by
  refine ⟨⟨fun two => ?_, ?_⟩, ?_⟩
  · obtain ⟨i, e, found, rfl⟩ := exists_element_of_two structured two
    rw [reportsOn_of_finds (.element found)] at two
    exact .element found ((length_elementViolations _ _).2.1.mp two)
  · rintro ⟨found, twice⟩
    rw [reportsOn_of_finds (.element found)]
    exact (length_elementViolations _ _).2.1.mpr twice
  · by_contra more
    have two : 1 < (m.reportsOn item).length := by omega
    obtain ⟨i, e, found, rfl⟩ := exists_element_of_two structured two
    rw [reportsOn_of_finds (.element found)] at more
    exact more (length_elementViolations _ _).2.2

/-- The reports on a function are those of the check of its body. -/
theorem reportsOn_func (structured : m.checkStructure = .ok ()) {i : Nat} {body : FuncBody}
    (found : m.code[i]? = some body) :
    m.reportsOn (.func (m.importCount .func + i)) = violations (m.checkFunctionBody i body) :=
  (reportsOn_of_finds (.func found)).trans (bodyViolations_eq structured found)

/-! ## Order -/

theorem pairwise_rejectionsOf {α : Type} {item : Nat → Item} {check : Nat → α → List Violation}
    {items : List α} (monotone : ∀ i j, i ≤ j → (item i).NotAfter (item j)) :
    (rejectionsOf item check items).Pairwise fun r r' => r.item.NotAfter r'.item := by
  have ordered : items.zipIdx.Pairwise fun a b => a.2 < b.2 := by
    have indices : (items.zipIdx.map Prod.snd).Pairwise (· < ·) := by
      rw [List.zipIdx_map_snd]
      exact List.pairwise_lt_range'
    exact List.pairwise_map.mp indices
  rw [rejectionsOf, List.pairwise_flatMap]
  constructor
  · rintro ⟨a, i⟩ -
    rw [List.pairwise_map]
    exact List.pairwise_of_forall fun _ _ => monotone i i (Nat.le_refl i)
  · refine ordered.imp ?_
    rintro ⟨a, i⟩ ⟨b, j⟩ before r mem r' mem'
    obtain ⟨v, -, rfl⟩ := List.mem_map.mp mem
    obtain ⟨v', -, rfl⟩ := List.mem_map.mp mem'
    exact monotone i j (Nat.le_of_lt before)

/-- The rejections are in the order in which the items are checked. -/
theorem pairwise_rejections (m : Module) :
    m.rejections.Pairwise fun r r' => r.item.NotAfter r'.item := by
  have sorts {α β : Type} {item item' : Nat → Item} {check : Nat → α → List Violation}
      {check' : Nat → β → List Violation} {items : List α} {items' : List β}
      (earlier : ∀ i j, (item i).sort < (item' j).sort) :
      ∀ r ∈ rejectionsOf item check items, ∀ r' ∈ rejectionsOf item' check' items',
        r.item.NotAfter r'.item := by
    intro r mem r' mem'
    obtain ⟨i, -, -, is, -⟩ := mem_rejectionsOf.mp mem
    obtain ⟨j, -, -, is', -⟩ := mem_rejectionsOf.mp mem'
    rw [is, is']
    exact .inl (earlier i j)
  simp only [rejections, List.pairwise_append, List.forall_mem_append]
  refine ⟨⟨⟨?globals, ?elements, ?_⟩, ?data, ?_, ?_⟩, ?code, ⟨?_, ?_⟩, ?_⟩
  case globals => exact pairwise_rejectionsOf fun i j le => .inr ⟨rfl, Nat.add_le_add_left le _⟩
  case elements => exact pairwise_rejectionsOf fun i j le => .inr ⟨rfl, le⟩
  case data => exact pairwise_rejectionsOf fun i j le => .inr ⟨rfl, le⟩
  case code => exact pairwise_rejectionsOf fun i j le => .inr ⟨rfl, Nat.add_le_add_left le _⟩
  all_goals exact sorts fun i j => by simp [Item.sort]

/-! ## The reports on a module -/

/-- How the reports on a module of sound structure relate to its items. -/
structure ItemByItem (m : Module) : Prop where
  /-- A report has its item as its path, and no cause. -/
  faults : m.faults = m.rejections.map fun r =>
    .report ⟨Phase.validate, r.violation.kind.word⟩ [r.item.name] r.violation.detail none
  /-- The reports are in the order of the items. -/
  ordered : m.rejections.Pairwise fun r r' => r.item.NotAfter r'.item
  /-- Each report is recognised as exactly one kind. -/
  recognised : ∀ r ∈ m.rejections,
    ∃! sentinel, sentinel ∈ sentinels ∧ r.toFault.isLike sentinel = true
  /-- The items that fail are the ones with reports. -/
  failing : ∀ item, 0 < (m.reportsOn item).length ↔ m.Fails item
  /-- A segment refused in two places has two reports, and nothing else has more than one. -/
  failingTwice : ∀ item, (1 < (m.reportsOn item).length ↔ m.FailsTwice item) ∧
    (m.reportsOn item).length ≤ 2
  /-- The reports on a function are those of the check of its body. -/
  functions : ∀ i body, m.code[i]? = some body →
    m.reportsOn (.func (m.importCount .func + i)) = violations (m.checkFunctionBody i body)
  /-- They are the same in every other module with the same context and the same body. -/
  apart : ∀ (m' : Module) i body, m'.checkStructure = .ok () →
    Context.ofModule m' = Context.ofModule m → m'.importCount .func = m.importCount .func →
    m.code[i]? = some body → m'.code[i]? = some body →
    m'.reportsOn (.func (m.importCount .func + i)) = m.reportsOn (.func (m.importCount .func + i))

/-- The reports on a module of sound structure, whose checks come to a verdict, are those on its
items. There is exactly one for each item that fails if, and only if, no active element segment
has both its offset and an entry refused. -/
theorem reports_itemByItem {m : Module} (structured : m.checkStructure = .ok ())
    (verdict : m.overreaches = false) : m.ItemByItem ∧
      ((∀ item, m.Fails item → (m.reportsOn item).length = 1) ↔ ∀ item, ¬ m.FailsTwice item) := by
  refine ⟨{
    faults := ?_
    ordered := m.pairwise_rejections
    recognised := fun r mem => r.existsUnique_sentinel fun past => ?_
    failing := fun item => reportsOn_pos_iff structured
    failingTwice := fun item => reportsOn_two_iff structured
    functions := fun i body found => reportsOn_func structured found
    apart := ?_ }, ?_⟩
  · unfold faults
    rw [structured]
    exact List.map_congr_left fun r _ => rfl
  · have overreaches := overreaches_iff_exists.mpr ⟨structured, r, mem, past⟩
    rw [verdict] at overreaches
    cases overreaches
  · intro m' i body structured' context imports found found'
    rw [reportsOn_func structured found, ← imports, reportsOn_func structured' found']
    simp only [checkFunctionBody, context, imports]
  · constructor
    · intro once item twice
      have two := (reportsOn_two_iff structured).1.mpr twice
      have one := once item ((reportsOn_pos_iff structured).mp (Nat.lt_of_succ_lt two))
      omega
    · intro never item fails
      have some := (reportsOn_pos_iff structured).mpr fails
      have few := (reportsOn_two_iff structured).1.not.mpr (never item)
      omega

/-- A table, and an active element segment whose offset and whose entry are of the wrong type. -/
def doubledModule : Module where
  tables := [⟨.funcref, ⟨1, none⟩⟩]
  elements := [⟨.active, 4, 0, .funcref,
    [.node Opcode.i64Const (some (.i64 0)) [] []], none,
    some [[.node Opcode.i32Const (some (.i32 0)) [] []]]⟩]

theorem reports_itemByItem_doubled :
    doubledModule.checkStructure = .ok () ∧ doubledModule.overreaches = false ∧
      doubledModule.ItemByItem ∧
        ((∀ item, doubledModule.Fails item → (doubledModule.reportsOn item).length = 1) ↔
          ∀ item, ¬ doubledModule.FailsTwice item) :=
  ⟨rfl, rfl, reports_itemByItem rfl rfl⟩

/-- The segment is one item and has two reports. -/
theorem reportsOn_doubledModule :
    doubledModule.checkStructure = .ok () ∧ doubledModule.rejections.length = 2 ∧
      doubledModule.reportsOn (.element 0) =
        [.constantResult Opcode.close .i32 [.i64], .constantResult Opcode.close .funcref [.i32]] :=
  ⟨rfl, rfl, rfl⟩

end Module

end WasmMachine
