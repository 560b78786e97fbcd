/-
# Modules and the sizes of their sections

The bytes of a module are put together of one part for each kind of section.
Reading a section changes one part only, by no more than the bytes of the section,
and what it leaves can be written again.  So a module that was read can be written,
in no more bytes than it was read from.
-/

import WasmMachine.Proofs.Module.Segments

namespace WasmMachine

open Decoder Leb128

/-- A list whose items can be written and whose section has a size of 32 bits. -/
structure ListFits {α : Type} (write : α → List UInt8) (Fine : α → Prop) (as : List α) : Prop where
  few : as.length < 2 ^ 32
  fine : ∀ a ∈ as, Fine a
  fits : (Encode.vector write as).length < 2 ^ 32

theorem ListFits.nil {α : Type} {write : α → List UInt8} {Fine : α → Prop} :
    ListFits write Fine [] where
  few := Nat.two_pow_pos 32
  fine _ mem := nomatch mem
  fits := by
    rw [Encode.vector, List.flatMap_nil, List.append_nil, List.length_nil]
    decide

/-- A custom section whose name and size fit. -/
structure CustomSection.Writable (c : CustomSection) : Prop where
  name : nameFits c.name
  fits : (Encode.customSection c).length < 2 ^ 32

namespace Module

/-- The sections in the order in which the writer puts them. -/
def sectionOrder : List SectionKind :=
  [.type, .import_, .function, .table, .memory, .global, .export_, .start, .element, .dataCount,
    .code, .data, .custom]

/-- The bytes of the sections of a kind. -/
def part (m : Module) : SectionKind → List UInt8
  | .custom => m.customs.flatMap fun c => Encode.section_ 0 (Encode.customSection c)
  | .type => Encode.listSection .type Encode.funcType m.types
  | .import_ => Encode.listSection .import_ Encode.importItem m.imports
  | .function => Encode.listSection .function Encode.u32 m.funcs
  | .table => Encode.listSection .table Encode.tableType m.tables
  | .memory => Encode.listSection .memory Encode.memoryType m.memories
  | .global => Encode.listSection .global Encode.global m.globals
  | .export_ => Encode.listSection .export_ Encode.exportItem m.exports
  | .start => Encode.numberSection .start m.start
  | .element => Encode.listSection .element Encode.element m.elements
  | .dataCount => Encode.numberSection .dataCount m.dataCount
  | .code => Encode.listSection .code Encode.sizedBody m.code
  | .data => Encode.listSection .data Encode.dataSegment m.data

/-- The bytes of all sections. -/
def parts (m : Module) : List UInt8 := sectionOrder.flatMap m.part

theorem encode_eq (m : Module) :
    m.encode = Encode.u32le 0x6d736100 ++ (Encode.u32le 1 ++ m.parts) := by
  simp [encode, parts, sectionOrder, part]

/-- Everything that the sections hold can be written. -/
structure Writable (m : Module) : Prop where
  types : ListFits Encode.funcType FuncType.Writable m.types
  imports : ListFits Encode.importItem Import.Writable m.imports
  funcs : ListFits Encode.u32 (fun _ => True) m.funcs
  tables : ListFits Encode.tableType TableType.Writable m.tables
  memories : ListFits Encode.memoryType (fun t => t.limits.Writable) m.memories
  globals : ListFits Encode.global Global.Writable m.globals
  exports : ListFits Encode.exportItem Export.Writable m.exports
  elements : ListFits Encode.element Element.Writable m.elements
  code : ListFits Encode.sizedBody FuncBody.Writable m.code
  data : ListFits Encode.dataSegment DataSegment.Writable m.data
  customs : ∀ c ∈ m.customs, c.Writable

theorem writable_empty : ({} : Module).Writable :=
  ⟨.nil, .nil, .nil, .nil, .nil, .nil, .nil, .nil, .nil, .nil, fun _ mem => nomatch mem⟩

/-- The numbers of bodies and of data segments are the ones declared. -/
structure Consistent (m : Module) : Prop where
  bodies : m.funcs.length = m.code.length
  dataCount : ∀ n, m.dataCount = some n → n.toNat = m.data.length

end Module

/-! ## Reading back -/

namespace Module

/-- The module as it is read back: the segments carry the flags the writer picks. -/
def canonical (m : Module) : Module :=
  { m with
    elements := m.elements.map Element.canonical
    data := m.data.map DataSegment.canonical }

/-- The module `done` with what `m` has of a kind; custom sections are added. -/
def take (m done : Module) : SectionKind → Module
  | .custom => { done with customs := done.customs ++ m.customs }
  | .type => { done with types := m.types }
  | .import_ => { done with imports := m.imports }
  | .function => { done with funcs := m.funcs }
  | .table => { done with tables := m.tables }
  | .memory => { done with memories := m.memories }
  | .global => { done with globals := m.globals }
  | .export_ => { done with exports := m.exports }
  | .start => { done with start := m.start }
  | .element => { done with elements := m.elements }
  | .dataCount => { done with dataCount := m.dataCount }
  | .code => { done with code := m.code }
  | .data => { done with data := m.data }

end Module

/-! ## Fields and their sections -/

namespace Encode

theorem funcType_ne_nil (t : FuncType) : funcType t ≠ [] := by simp [funcType]

theorem importItem_ne_nil (i : Import) : importItem i ≠ [] := by simp [importItem, importDesc]

theorem tableType_ne_nil (t : TableType) : tableType t ≠ [] := by simp [tableType]

theorem memoryType_ne_nil (t : MemoryType) : memoryType t ≠ [] := by
  cases h : t.limits.max <;> simp [memoryType, limits, h]

theorem global_ne_nil (g : Global) : global g ≠ [] := by simp [global, globalType]

theorem exportItem_ne_nil (e : Export) : exportItem e ≠ [] := by simp [exportItem]

theorem element_ne_nil (e : Element) : element e ≠ [] := by simp [element, Codec.u32_ne_nil]

theorem sizedBody_ne_nil (b : FuncBody) : sizedBody b ≠ [] := by simp [sizedBody, expr]

theorem dataSegment_ne_nil (d : DataSegment) : dataSegment d ≠ [] := by
  simp [dataSegment, length, Codec.u32_ne_nil]

end Encode

namespace Decoder

/-- What ties the sections of a kind that hold a list to the field of a module in which
the list is kept. -/
structure ListField {α : Type} (early : Bool) (kind : SectionKind) (item : Nat → Decoder α)
    (write : α → List UInt8) (Fine : α → Prop) (normal : α → α) (get : Module → List α)
    (put : Module → List α → Module) : Prop where
  codec : ∀ i, Codec (item i) write Fine normal
  some : ∀ a, write a ≠ []
  fits : ∀ m : Module, m.Writable → ListFits write Fine (get m)
  writable : ∀ m as, ListFits write Fine as → m.Writable → (put m as).Writable
  contents : ∀ m, sectionContents early m kind = do return put m (← Decoder.vector early item) := by
    intros; rfl
  part : ∀ m : Module, m.part kind = Encode.listSection kind write (get m) := by
    intros; rfl
  empty : get {} = [] := by rfl
  get_put : ∀ m as, get (put m as) = as := by
    intros; rfl
  others : ∀ m as k, k ≠ kind → (put m as).part k = m.part k := by
    intro m as k other
    cases k <;> first | rfl | exact absurd rfl other
  takes : ∀ m done : Module, m.canonical.take done kind = put done ((get m).map normal) := by
    intro m done
    simp [Module.take, Module.canonical]

/-- The same for the sections that hold a number. -/
structure NumberField (early : Bool) (kind : SectionKind) (get : Module → Option UInt32)
    (put : Module → Option UInt32 → Module) : Prop where
  writable : ∀ m n, m.Writable → (put m n).Writable
  contents : ∀ m, sectionContents early m kind = do return put m (some (← Decoder.u32)) := by
    intros; rfl
  part : ∀ m : Module, m.part kind = Encode.numberSection kind (get m) := by
    intros; rfl
  empty : get {} = none := by rfl
  get_put : ∀ m n, get (put m n) = n := by
    intros; rfl
  others : ∀ m n k, k ≠ kind → (put m n).part k = m.part k := by
    intro m n k other
    cases k <;> first | rfl | exact absurd rfl other
  takes : ∀ m done : Module, m.canonical.take done kind = put done (get m) := by
    intros; rfl

/-- What a section holds that is not a custom one. -/
inductive Field (early : Bool) (kind : SectionKind) : Prop
  | list {α : Type} {item : Nat → Decoder α} {write : α → List UInt8} {Fine : α → Prop}
      {normal : α → α} (get : Module → List α) (put : Module → List α → Module) :
      ListField early kind item write Fine normal get put → Field early kind
  | number (get : Module → Option UInt32) (put : Module → Option UInt32 → Module) :
      NumberField early kind get put → Field early kind

/-- Every section but the custom ones holds a list or a number. -/
theorem field_of_ordinary (early : Bool) {kind : SectionKind} (ordinary : kind ≠ .custom) :
    Field early kind := by
  cases kind
  case custom => exact absurd rfl ordinary
  case type =>
    exact .list Module.types (fun m as => { m with types := as })
      { codec := Codec.typeItem early
        some := Encode.funcType_ne_nil
        fits := fun _ writable => writable.types
        writable := fun _ _ fits writable => { writable with types := fits } }
  case import_ =>
    exact .list Module.imports (fun m as => { m with imports := as })
      { codec := fun _ => Codec.importItem
        some := Encode.importItem_ne_nil
        fits := fun _ writable => writable.imports
        writable := fun _ _ fits writable => { writable with imports := fits } }
  case function =>
    exact .list Module.funcs (fun m as => { m with funcs := as })
      { codec := fun _ => Codec.u32
        some := Codec.u32_ne_nil
        fits := fun _ writable => writable.funcs
        writable := fun _ _ fits writable => { writable with funcs := fits } }
  case table =>
    exact .list Module.tables (fun m as => { m with tables := as })
      { codec := fun _ => Codec.tableType
        some := Encode.tableType_ne_nil
        fits := fun _ writable => writable.tables
        writable := fun _ _ fits writable => { writable with tables := fits } }
  case memory =>
    exact .list Module.memories (fun m as => { m with memories := as })
      { codec := fun _ => Codec.memoryType
        some := Encode.memoryType_ne_nil
        fits := fun _ writable => writable.memories
        writable := fun _ _ fits writable => { writable with memories := fits } }
  case global =>
    exact .list Module.globals (fun m as => { m with globals := as })
      { codec := Codec.global early
        some := Encode.global_ne_nil
        fits := fun _ writable => writable.globals
        writable := fun _ _ fits writable => { writable with globals := fits } }
  case export_ =>
    exact .list Module.exports (fun m as => { m with exports := as })
      { codec := fun _ => Codec.exportItem
        some := Encode.exportItem_ne_nil
        fits := fun _ writable => writable.exports
        writable := fun _ _ fits writable => { writable with exports := fits } }
  case start =>
    exact .number Module.start (fun m n => { m with start := n })
      { writable := fun _ _ writable => { writable with } }
  case element =>
    exact .list Module.elements (fun m as => { m with elements := as })
      { codec := fun i => Codec.inside (.element i) (Codec.element early)
        some := Encode.element_ne_nil
        fits := fun _ writable => writable.elements
        writable := fun _ _ fits writable => { writable with elements := fits } }
  case dataCount =>
    exact .number Module.dataCount (fun m n => { m with dataCount := n })
      { writable := fun _ _ writable => { writable with } }
  case code =>
    exact .list Module.code (fun m as => { m with code := as })
      { codec := Codec.sizedBody early
        some := Encode.sizedBody_ne_nil
        fits := fun _ writable => writable.code
        writable := fun _ _ fits writable => { writable with code := fits } }
  case data =>
    exact .list Module.data (fun m as => { m with data := as })
      { codec := Codec.dataSegment early
        some := Encode.dataSegment_ne_nil
        fits := fun _ writable => writable.data
        writable := fun _ _ fits writable => { writable with data := fits } }

/-! ## What sections leave behind -/

/-- What reading a section does to a module: it changes one part, by no more than a
section of the size that was read, and leaves a module that can be written. -/
structure Changes (m : Module) (kind : SectionKind) (bytes : List UInt8) (m' : Module) : Prop where
  writable : bytes.length < 2 ^ 32 → m.Writable → m'.Writable
  others : ∀ k, k ≠ kind → m'.part k = m.part k
  larger : ∃ payload : List UInt8, payload.length ≤ bytes.length ∧
    (m'.part kind).length ≤ (m.part kind).length + (Encode.section_ kind.id payload).length

theorem Yields.sectionContents (early : Bool) (m : Module) (kind : SectionKind) :
    Yields (Decoder.sectionContents early m kind) (Changes m kind) := by
  by_cases ordinary : kind = .custom
  · subst ordinary
    refine Yields.bind Yields.customSection fun bytes c found => Yields.pure ?_
    obtain ⟨name, short⟩ := found
    rw [List.append_nil]
    refine ⟨fun small writable => ?_, ?_, Encode.customSection c, short, ?_⟩
    · refine { writable with customs := fun x mem => ?_ }
      rcases List.mem_append.mp mem with mem | mem
      · exact writable.customs x mem
      · obtain rfl := List.mem_singleton.mp mem
        exact ⟨name, Nat.lt_of_le_of_lt short small⟩
    · intro k other
      cases k <;> first | rfl | exact absurd rfl other
    · simp [Module.part, SectionKind.id]
  · cases field_of_ordinary early ordinary with
    | list get put field =>
        rw [field.contents]
        refine Yields.bind (Codec.vector early field.codec field.some).yields
          fun bytes as found => Yields.pure ?_
        obtain ⟨⟨few, fine⟩, short⟩ := found
        rw [List.append_nil]
        refine ⟨fun small => field.writable m as ⟨few, fine, Nat.lt_of_le_of_lt short small⟩,
          field.others m as, Encode.vector _ as, short, ?_⟩
        rw [field.part, field.get_put, Encode.listSection]
        split
        · exact Nat.zero_le _
        · exact Nat.le_add_left _ _
    | number get put field =>
        rw [field.contents]
        refine Yields.bind Yields.u32 fun bytes n number => Yields.pure ?_
        rw [List.append_nil]
        refine ⟨fun _ => field.writable m (some n), field.others m (some n), Encode.u32 n,
          Encode.length_u32_le number, ?_⟩
        rw [field.part, field.get_put]
        exact Nat.le_add_left _ _

/-- One part grows, the others stay. -/
private theorem length_flatMap_update {kinds : List SectionKind} (once : kinds.Nodup)
    {kind : SectionKind} {before after : SectionKind → List UInt8} {n : Nat}
    (others : ∀ k, k ≠ kind → after k = before k)
    (larger : (after kind).length ≤ (before kind).length + n) :
    (kinds.flatMap after).length ≤ (kinds.flatMap before).length + n := by
  induction kinds with
  | nil => exact Nat.zero_le _
  | cons k kinds ih =>
      rw [List.nodup_cons] at once
      simp only [List.flatMap_cons, List.length_append]
      by_cases here : k = kind
      · subst here
        have rest : kinds.flatMap after = kinds.flatMap before := by
          have same : kinds.map after = kinds.map before := by
            refine List.map_congr_left fun x mem => others x ?_
            rintro rfl
            exact once.1 mem
          rw [List.flatMap_def, List.flatMap_def, same]
        rw [rest]
        omega
      · have same := others k here
        have rest := ih once.2
        rw [same]
        omega

private theorem Changes.length_parts_le {m m' : Module} {kind : SectionKind}
    {head bytes : List UInt8} {size : UInt32} (changes : Changes m kind bytes m')
    (number : Unsigned head size) (length : bytes.length = size.toNat) :
    m'.parts.length ≤ m.parts.length + (1 + head.length + bytes.length) := by
  obtain ⟨payload, short, larger⟩ := changes.larger
  have front := Encode.length_length_le number (Nat.le_trans short (Nat.le_of_eq length))
  have own : (m'.part kind).length ≤ (m.part kind).length + (1 + head.length + bytes.length) := by
    simp only [Encode.section_, List.length_cons, List.length_append] at larger
    omega
  exact length_flatMap_update (by decide) changes.others own

theorem sections_step (early : Bool) (fuel last : Nat) (m : Module) :
    Decoder.sections early (fuel + 1) last m = (do
      let n ← left
      if n == 0 then return m
      else do
        let id ← locate "section header" byte
        let kind ← sectionKind last id
        let size ← locate "section size" u32
        sized (locate "section data" (window size.toNat))
          (inside (.section_ kind.name) (Decoder.sectionContents early m kind)) fun m unread =>
            if unread.left != 0 then
              throw (.inside (.section_ kind.name)
                (.located kind.name unread.position .sizeMismatch))
            else Decoder.sections early fuel (if kind = .custom then last else kind.order) m) := by
  simp only [Decoder.sections, throw_bind]
  rfl

private theorem Yields.sectionKind (last : Nat) (id : UInt8) :
    Yields (Decoder.sectionKind last id) fun bytes _ => bytes = [] := by
  unfold Decoder.sectionKind
  split
  · exact Yields.throw _
  · exact Yields.pure rfl
  · exact Yields.ite (fun _ => Yields.throw _) fun _ => Yields.pure rfl

/-- What sections have read can be written in no more bytes. -/
private theorem Yields.sections (early : Bool) (fuel : Nat) : ∀ (last : Nat) (m : Module),
    Yields (Decoder.sections early fuel last m) fun bytes m' =>
      (m.Writable → m'.Writable) ∧ m'.parts.length ≤ m.parts.length + bytes.length := by
  induction fuel with
  | zero => exact fun last m => Yields.pure ⟨id, Nat.le_refl _⟩
  | succ fuel ih =>
      intro last m
      rw [sections_step]
      refine Yields.bind Yields.left fun none n taken => ?_
      subst taken
      refine Yields.ite (fun _ => Yields.pure ⟨id, Nat.le_refl _⟩) fun _ => ?_
      refine Yields.bind (Yields.locate _ Yields.byte) fun first id taken => ?_
      subst taken
      refine Yields.bind (Yields.sectionKind last id) fun none kind taken => ?_
      subst taken
      refine Yields.bind (Yields.locate _ Yields.u32) fun head size number => ?_
      refine Yields.sized (fun _ _ _ => locate_eq_ok_iff)
        (Yields.inside _ (Yields.sectionContents early m kind)) ?_ ?_
      · intro m' unread some
        rw [if_pos (by simpa using some)]
        exact Yields.throw _
      · intro bytes m' unread length changes
        refine Yields.ite (fun _ => Yields.throw _) fun _ => ?_
        refine (ih _ m').mono fun more m'' found => ?_
        obtain ⟨writable, short⟩ := found
        have grown := changes.length_parts_le number length
        have small : bytes.length < 2 ^ 32 := length ▸ size.toNat_lt
        refine ⟨fun fits => writable (changes.writable small fits), ?_⟩
        simp only [List.length_append, List.length_cons, List.length_nil]
        omega

/-- What is read as a module can be written in no more bytes. -/
theorem Yields.module_ (early : Bool) : Yields (Decoder.module_ early) fun bytes m =>
    m.Writable ∧ m.Consistent ∧ m.encode.length ≤ bytes.length := by
  unfold Decoder.module_
  simp only [throw_bind]
  refine Yields.bind (Yields.locate _ Yields.u32le) fun magic _ found => ?_
  refine Yields.ite (fun _ => Yields.throw _) fun _ => ?_
  refine Yields.bind (Yields.locate _ Yields.u32le) fun version _ found' => ?_
  refine Yields.ite (fun _ => Yields.throw _) fun _ => ?_
  refine Yields.bind Yields.left fun none n taken => ?_
  subst taken
  refine Yields.bind (Yields.sections early (n + 1) 0 {}) fun bytes m read => ?_
  refine Yields.ite (fun _ => Yields.throw _) fun bodies => ?_
  have empty : ({} : Module).parts = [] := rfl
  have size : m.encode.length = 8 + m.parts.length := by
    simp only [m.encode_eq, Encode.u32le, List.length_append, length_littleEndian]
    omega
  have short : m.encode.length ≤ (magic ++ (version ++ ([] ++ (bytes ++ [])))).length := by
    have grown := read.2
    simp only [empty, List.length_append, List.length_nil] at grown ⊢
    omega
  have equal : m.funcs.length = m.code.length := by simpa using bodies
  split
  · next declared counted =>
      refine Yields.ite (fun _ => Yields.throw _) fun agrees => Yields.pure ?_
      refine ⟨read.1 Module.writable_empty, ⟨equal, fun n some => ?_⟩, short⟩
      obtain rfl : declared = n := Option.some.inj (counted.symm.trans some)
      simpa using agrees
  · next uncounted =>
      refine Yields.pure ⟨read.1 Module.writable_empty, ⟨equal, fun n some => ?_⟩, short⟩
      exact absurd some (uncounted n)

end Decoder

end WasmMachine
