/-
# The items of a module and their bytes

For each kind of item that a section holds there is a step that reads it and a
function that writes it.  A `Codec` says that the two belong together: what is
read can be written, in no more bytes than were read, and what is written is read
back.  What comes back is a normal form of the item, because a segment carries the
flags it was read with and these need not be the ones the writer picks.
-/

import WasmMachine.Module.Encode
import WasmMachine.Proofs.Instruction.RoundTrip

namespace WasmMachine

namespace Decoder

open Leb128

/-- A reading step and a writer that belong together on the items for which
`Fine` holds. -/
structure Codec {α : Type} (step : Decoder α) (write : α → List UInt8) (Fine : α → Prop)
    (normal : α → α) : Prop where
  yields : Yields step fun bytes a => Fine a ∧ (write a).length ≤ bytes.length
  reads : ∀ a, Fine a → Reads step (write a) (normal a)

namespace Codec

variable {α β : Type} {write : α → List UInt8} {Fine : α → Prop} {normal : α → α}

theorem inside {step : Decoder α} (place : Place) (codec : Codec step write Fine normal) :
    Codec (Decoder.inside place step) write Fine normal :=
  ⟨Yields.inside place codec.yields, fun a fine => Reads.inside place (codec.reads a fine)⟩

/-- A list of items behind its length. -/
theorem vector {item : Nat → Decoder α} (early : Bool)
    (codec : ∀ i, Codec (item i) write Fine normal) (some : ∀ a, write a ≠ []) :
    Codec (Decoder.vector early item) (Encode.vector write)
      (fun as => as.length < 2 ^ 32 ∧ ∀ a ∈ as, Fine a) (List.map normal) where
  yields := by
    refine (Yields.vector early fun i => (codec i).yields).mono fun bytes as counted => ?_
    refine ⟨⟨counted.few, fun a mem => ?_⟩, counted.length_vector_le fun _ _ found => found.2⟩
    obtain ⟨_, fine, -⟩ := counted.forall_mem a mem
    exact fine
  reads := by
    rintro as ⟨few, fine⟩
    refine Reads.vector early (P := fun part a => ∃ b, Fine b ∧ part = write b ∧ a = normal b)
      ?_ ?_ ⟨?_, _, _, rfl, ?_, ?_⟩
    · rintro i _ _ ⟨b, fine, rfl, rfl⟩
      exact (codec i).reads b fine
    · rintro _ _ ⟨b, _, rfl, _⟩
      exact some b
    · rwa [List.length_map]
    · rw [List.length_map]
      exact Encode.unsigned_u32 _
    · exact Parts.flatMap_map fun b mem => ⟨b, fine b mem, rfl, rfl⟩

theorem u32 : Codec Decoder.u32 Encode.u32 (fun _ => True) id where
  yields := Yields.u32.mono fun _ _ number => ⟨trivial, Encode.length_u32_le number⟩
  reads n _ := Reads.u32 (Encode.unsigned_u32 n)

theorem name : Codec Decoder.name Encode.name (fun s => s.toUTF8.toList.length < 2 ^ 32) id where
  yields := Yields.name.mono fun _ _ named => ⟨named.few, named.length_name_le⟩
  reads _ few := Reads.name (named_name few)

theorem valType : Codec Decoder.valType (fun t => [t.code]) (fun t => t.isValid) id where
  yields := Yields.valType.mono fun _ _ ⟨taken, valid⟩ => ⟨valid, by simp [taken]⟩
  reads _ valid := Reads.valType valid

end Codec

end Decoder

/-! ## Types -/

/-- Sequences of trees that an expression can hold. -/
structure Instruction.Writable (is : List Instruction) : Prop where
  wellFormed : allWellFormed is
  shallow : depthOf is ≤ maxNesting

/-- Bounds of 32 bits in their order. -/
structure Limits.Writable (l : Limits) : Prop where
  min_lt : l.min.toNat < 2 ^ 32
  max_lt : ∀ most, l.max = some most → most.toNat < 2 ^ 32
  ordered : ∀ most, l.max = some most → l.min ≤ most

/-- Tables of references. -/
structure TableType.Writable (t : TableType) : Prop where
  reference : t.elem.isRef
  limits : t.limits.Writable

/-- A list of meaningful types that can be counted. -/
structure ValType.Writable (ts : List ValType) : Prop where
  few : ts.length < 2 ^ 32
  valid : ∀ t ∈ ts, t.isValid

/-- Function types of meaningful types. -/
structure FuncType.Writable (t : FuncType) : Prop where
  params : ValType.Writable t.params
  results : ValType.Writable t.results

namespace Decoder.Codec

open Leb128

theorem expr (early : Bool) : Codec (Decoder.expr early) Encode.expr Instruction.Writable id where
  yields := by
    refine (Yields.expr early).mono fun bytes is found => ?_
    obtain ⟨inner, rfl, spelled, shallow⟩ := found
    have short := Encode.length_instructions_le spelled
    exact ⟨⟨spelled.wellFormed, shallow⟩, by simpa [Encode.expr] using short⟩
  reads is writable :=
    Reads.expr early (Encode.spelled_instructions is writable.wellFormed) writable.shallow

theorem limits : Codec Decoder.limits Encode.limits Limits.Writable id where
  yields := by
    refine Yields.bind Yields.byte fun bytes flags taken => ?_
    subst taken
    simp only [throw_bind]
    refine Yields.ite (fun _ => Yields.throw _) fun known => ?_
    refine Yields.bind Yields.u32 fun first least number => ?_
    have short := Encode.length_u32_le number
    have small := least.toNat_lt
    refine Yields.ite (fun _ => Yields.pure ⟨⟨?_, ?_, ?_⟩, ?_⟩) fun two => ?_
    · simpa using small
    · simp
    · simp
    · simpa [Encode.limits] using short
    · refine Yields.bind Yields.u32 fun second most number' => ?_
      have short' := Encode.length_u32_le number'
      have small' := most.toNat_lt
      refine Yields.ite (fun _ => Yields.throw _) fun ordered => Yields.pure ⟨⟨?_, ?_, ?_⟩, ?_⟩
      · simpa using small
      · simpa using small'
      · rw [UInt32.not_lt] at ordered
        simpa [UInt64.le_iff_toNat_le, UInt32.le_iff_toNat_le] using ordered
      · simp only [Encode.limits, UInt32.toUInt32_toUInt64, List.length_append, List.length_cons,
          List.length_nil]
        omega
  reads l writable := by
    obtain ⟨least, max⟩ := l
    obtain ⟨min_lt, max_lt, ordered⟩ := writable
    have back  := Encode.toUInt64_toUInt32_of_lt min_lt
    cases max with
    | none =>
        refine Reads.bind_cons (Reads.byte 0) ?_
        simp only [throw_bind]
        refine Reads.guard (by decide) ?_
        refine Reads.bind_pure (Reads.u32 (Encode.unsigned_u32 least.toUInt32)) ?_
        simp [back]
    | some most =>
        have back'  := Encode.toUInt64_toUInt32_of_lt (max_lt most rfl)
        have fits : ¬ most.toUInt32 < least.toUInt32 := by
          have order := ordered most rfl
          rw [← back, ← back', UInt64.le_iff_toNat_le] at order
          rw [UInt32.not_lt, UInt32.le_iff_toNat_le]
          simpa using order
        refine Reads.bind_cons (Reads.byte 1) ?_
        simp only [throw_bind]
        refine Reads.guard (by decide) ?_
        refine Reads.bind (Reads.u32 (Encode.unsigned_u32 least.toUInt32)) ?_
        refine Reads.bind_pure (Reads.u32 (Encode.unsigned_u32 most.toUInt32)) ?_
        simp [back, back', fits]

theorem u32_ne_nil (n : UInt32) : Encode.u32 n ≠ [] :=
  List.length_pos_iff.mp (Encode.unsigned_u32 n).groups.length_pos

theorem expr_ne_nil (is : List Instruction) : Encode.expr is ≠ [] := by
  simp [Encode.expr]

theorem memoryType :
    Codec Decoder.memoryType Encode.memoryType (fun t => t.limits.Writable) id where
  yields := by
    refine Yields.bind limits.yields fun bytes l found => Yields.pure ?_
    rw [List.append_nil]
    exact found
  reads t writable := Reads.bind_pure (limits.reads t.limits writable) rfl

theorem tableType : Codec Decoder.tableType Encode.tableType TableType.Writable id where
  yields := by
    refine Yields.bind Yields.valType fun bytes elem found => ?_
    obtain ⟨rfl, -⟩ := found
    simp only [throw_bind]
    refine Yields.ite (fun _ => Yields.throw _) fun reference => ?_
    refine Yields.bind limits.yields fun bytes l found => Yields.pure ?_
    obtain ⟨writable, short⟩ := found
    exact ⟨⟨by simpa using reference, writable⟩, by simpa [Encode.tableType] using short⟩
  reads t writable := by
    refine Reads.bind_cons
      (Reads.valType (ValType.isValid_of_isRef writable.reference)) ?_
    simp only [throw_bind]
    exact Reads.guard (by simp [writable.reference])
      (Reads.bind_pure (limits.reads t.limits writable.limits) rfl)

theorem globalType : Codec Decoder.globalType Encode.globalType (fun t => t.type.isValid) id where
  yields := by
    refine Yields.bind Yields.valType fun bytes type found => ?_
    obtain ⟨rfl, valid⟩ := found
    refine Yields.bind Yields.byte fun bytes flag taken => ?_
    subst taken
    simp only [throw_bind]
    refine Yields.ite (fun _ => Yields.throw _) fun _ => Yields.pure ?_
    exact ⟨valid, Nat.le_refl _⟩
  reads t valid := by
    refine Reads.bind_cons (Reads.valType valid) ?_
    refine Reads.bind_pure (Reads.byte _) ?_
    cases t with
    | mk type mutable => cases mutable <;> rfl

theorem valTypes (early : Bool) :
    Codec (Decoder.vector early fun _ => Decoder.valType) Encode.valTypes ValType.Writable id where
  yields := by
    refine (vector early (fun _ => valType) fun _ => by simp).yields.mono fun bytes ts found => ?_
    obtain ⟨⟨few, valid⟩, short⟩ := found
    exact ⟨⟨few, valid⟩, short⟩
  reads ts writable := by
    have reads := (vector early (fun _ => valType) fun _ => by simp).reads ts
      ⟨writable.few, writable.valid⟩
    rwa [List.map_id] at reads

/-- A function type behind the byte that announces it. -/
theorem typeItem (early : Bool) (i : Nat) :
    Codec (do
      let form ← byte
      if form != 0x60 then throw (.inside (.type i) (.typeForm form))
      Decoder.inside (.type i) (funcType early)) Encode.funcType FuncType.Writable id where
  yields := by
    refine Yields.bind Yields.byte fun bytes form taken => ?_
    subst taken
    simp only [throw_bind]
    refine Yields.ite (fun _ => Yields.throw _) fun _ => Yields.inside _ ?_
    refine Yields.bind (valTypes early).yields fun first params found => ?_
    refine Yields.bind (valTypes early).yields fun second results found' => Yields.pure ?_
    obtain ⟨writable, short⟩ := found
    obtain ⟨writable', short'⟩ := found'
    refine ⟨⟨writable, writable'⟩, ?_⟩
    simp only [Encode.funcType, List.length_append, List.length_cons, List.length_nil]
    omega
  reads t writable := by
    refine Reads.bind_cons (Reads.byte 0x60) ?_
    simp only [throw_bind]
    refine Reads.guard (by decide) (Reads.inside _ ?_)
    exact Reads.bind ((valTypes early).reads t.params writable.params)
      (Reads.bind_pure ((valTypes early).reads t.results writable.results) rfl)

end Decoder.Codec

/-! ## Imports, exports and globals -/

/-- An import whose kind has the field that it asks for, and no other. -/
inductive ImportDesc.Writable : ImportDesc → Prop
  | func (type : UInt32) : Writable ⟨.func, type, none, none, none⟩
  | table {t : TableType} : t.Writable → Writable ⟨.table, 0, some t, none, none⟩
  | memory {t : MemoryType} : t.limits.Writable → Writable ⟨.memory, 0, none, some t, none⟩
  | global {t : GlobalType} : t.type.isValid → Writable ⟨.global, 0, none, none, some t⟩

/-- Texts whose length in bytes fits in 32 bits. -/
def nameFits (s : String) : Prop := s.toUTF8.toList.length < 2 ^ 32

/-- Imports of things that can be described under names that can be written. -/
structure Import.Writable (i : Import) : Prop where
  mod : nameFits i.mod
  name : nameFits i.name
  desc : i.desc.Writable

/-- Globals with a meaningful type and an expression. -/
structure Global.Writable (g : Global) : Prop where
  type : g.type.type.isValid
  init : Instruction.Writable g.init

/-- Exports of one of the four kinds. -/
structure Export.Writable (e : Export) : Prop where
  name : nameFits e.name
  kind : e.kind.code ≤ 3

namespace Decoder.Codec

theorem importItem : Codec Decoder.importItem Encode.importItem Import.Writable id where
  yields := by
    refine Yields.bind name.yields fun first mod found => ?_
    refine Yields.bind name.yields fun second field found' => ?_
    refine Yields.bind Yields.byte fun bytes kind taken => ?_
    subst taken
    obtain ⟨few, short⟩ := found
    obtain ⟨few', short'⟩ := found'
    have head : ∀ {desc : ImportDesc} {rest : List UInt8}, desc.Writable →
        (Encode.importDesc desc).length ≤ rest.length + 1 →
        Import.Writable ⟨mod, field, desc⟩ ∧
          (Encode.importItem ⟨mod, field, desc⟩).length ≤
            (first ++ (second ++ ([kind] ++ rest))).length := by
      intro desc rest writable size
      refine ⟨⟨few, few', writable⟩, ?_⟩
      simp only [Encode.importItem, List.length_append, List.length_cons, List.length_nil]
      omega
    split
    · next is =>
        obtain rfl : kind = 0 := UInt8.toNat_inj.mp is
        refine Yields.bind Yields.u32 fun bytes type number => Yields.pure ?_
        have size := Encode.length_u32_le number
        rw [List.append_nil]
        exact head (.func type) (by simpa [Encode.importDesc] using size)
    · next is =>
        obtain rfl : kind = 1 := UInt8.toNat_inj.mp is
        refine Yields.bind tableType.yields fun bytes table found => Yields.pure ?_
        rw [List.append_nil]
        exact head (.table found.1) (by simpa [Encode.importDesc] using found.2)
    · next is =>
        obtain rfl : kind = 2 := UInt8.toNat_inj.mp is
        refine Yields.bind memoryType.yields fun bytes memory found => Yields.pure ?_
        rw [List.append_nil]
        exact head (.memory found.1) (by simpa [Encode.importDesc] using found.2)
    · next is =>
        obtain rfl : kind = 3 := UInt8.toNat_inj.mp is
        refine Yields.bind globalType.yields fun bytes global found => Yields.pure ?_
        rw [List.append_nil]
        exact head (.global found.1) (by simpa [Encode.importDesc] using found.2)
    · exact Yields.throw _
  reads i writable := by
    obtain ⟨mod, field, desc⟩ := i
    obtain ⟨few, few', desc⟩ := writable
    simp only [Encode.importItem, List.append_assoc]
    refine Reads.bind (name.reads mod few) (Reads.bind (name.reads field few') ?_)
    cases desc with
    | func type =>
        exact Reads.bind_cons (Reads.byte 0) (Reads.bind_pure (u32.reads type trivial) rfl)
    | table writable =>
        exact Reads.bind_cons (Reads.byte 1)
          (Reads.bind_pure (tableType.reads _ writable) rfl)
    | memory writable =>
        exact Reads.bind_cons (Reads.byte 2)
          (Reads.bind_pure (memoryType.reads _ writable) rfl)
    | global valid =>
        exact Reads.bind_cons (Reads.byte 3)
          (Reads.bind_pure (globalType.reads _ valid) rfl)

theorem global (early : Bool) (i : Nat) :
    Codec (Decoder.global early i) Encode.global Global.Writable id where
  yields := by
    refine Yields.bind globalType.yields fun first type found => ?_
    refine Yields.bind (inside _ (expr early)).yields fun second init found' => Yields.pure ?_
    obtain ⟨valid, short⟩ := found
    obtain ⟨writable, short'⟩ := found'
    refine ⟨⟨valid, writable⟩, ?_⟩
    simp only [Encode.global, List.length_append, List.length_nil]
    omega
  reads g writable :=
    Reads.bind (globalType.reads g.type writable.type)
      (Reads.bind_pure ((inside _ (expr early)).reads g.init writable.init) rfl)

theorem exportItem : Codec Decoder.exportItem Encode.exportItem Export.Writable id where
  yields := by
    refine Yields.bind name.yields fun first field found => ?_
    refine Yields.bind Yields.byte fun bytes kind taken => ?_
    subst taken
    simp only [throw_bind]
    refine Yields.ite (fun _ => Yields.throw _) fun known => ?_
    refine Yields.bind Yields.u32 fun second index number => Yields.pure ?_
    obtain ⟨few, short⟩ := found
    have short' := Encode.length_u32_le number
    refine ⟨⟨few, UInt8.not_lt.mp known⟩, ?_⟩
    simp only [Encode.exportItem, List.length_append, List.length_cons, List.length_nil]
    omega
  reads e writable := by
    refine Reads.bind (name.reads e.name writable.name) ?_
    refine Reads.bind_cons (Reads.byte e.kind.code) ?_
    simp only [throw_bind]
    exact Reads.guard (UInt8.not_lt.mpr writable.kind)
      (Reads.bind_pure (u32.reads e.index trivial) rfl)

end Decoder.Codec

/-! ## Function bodies -/

/-- The number of locals that groups declare together. -/
def LocalGroup.total : List LocalGroup → Nat
  | [] => 0
  | g :: groups => g.count.toNat + total groups

/-- Groups of locals of meaningful types, no more of them together than a function
may declare. -/
structure LocalGroup.Writable (groups : List LocalGroup) : Prop where
  few : groups.length < 2 ^ 32
  total : LocalGroup.total groups ≤ maxLocals
  valid : ∀ g ∈ groups, g.type.isValid

/-- The locals and the instructions of a function without their size. -/
def Encode.funcBody (b : FuncBody) : List UInt8 :=
  vector (fun g => u32 g.count ++ [g.type.code]) b.locals ++ expr b.body

/-- Function bodies whose size fits in 32 bits. -/
structure FuncBody.Writable (b : FuncBody) : Prop where
  locals : LocalGroup.Writable b.locals
  body : Instruction.Writable b.body
  fits : (Encode.funcBody b).length < 2 ^ 32

namespace Decoder

open Leb128

private def groupBytes (g : LocalGroup) : List UInt8 := Encode.u32 g.count ++ [g.type.code]

private theorem Yields.localGroups (n : Nat) : ∀ (total : Nat) (done : List LocalGroup),
    Yields (Decoder.localGroups n total done) fun bytes groups =>
      ∃ new, groups = done.reverse ++ new ∧ new.length = n ∧
        (total ≤ maxLocals → total + LocalGroup.total new ≤ maxLocals) ∧
        (∀ g ∈ new, g.type.isValid) ∧ (new.flatMap groupBytes).length ≤ bytes.length := by
  induction n with
  | zero =>
      exact fun total done =>
        Yields.pure ⟨[], by simp, rfl, by simp [LocalGroup.total], by simp, by simp⟩
  | succ n ih =>
      intro total done
      refine Yields.bind Yields.u32 fun first count number => ?_
      simp only [throw_bind]
      refine Yields.ite (fun _ => Yields.throw _) fun few => ?_
      refine Yields.bind Yields.valType fun second type found => ?_
      obtain ⟨rfl, valid⟩ := found
      refine (ih (total + count.toNat) (⟨count, type⟩ :: done)).mono fun more groups found => ?_
      obtain ⟨new, equal, length, within, fine, short⟩ := found
      refine ⟨⟨count, type⟩ :: new, by simp [equal], by simp [length], ?_, ?_, ?_⟩
      · intro _
        have := within (Nat.not_lt.mp few)
        simp only [LocalGroup.total]
        omega
      · intro g mem
        rcases List.mem_cons.mp mem with rfl | mem
        · exact valid
        · exact fine g mem
      · have := Encode.length_u32_le number
        simp only [List.flatMap_cons, groupBytes, List.length_append, List.length_cons,
          List.length_nil] at short ⊢
        omega

private theorem Reads.localGroups {groups : List LocalGroup}
    (valid : ∀ g ∈ groups, g.type.isValid) : ∀ (total : Nat) (done : List LocalGroup),
    total + LocalGroup.total groups ≤ maxLocals →
      Reads (Decoder.localGroups groups.length total done) (groups.flatMap groupBytes)
        (done.reverse ++ groups) := by
  induction groups with
  | nil =>
      intro total done _
      rw [List.append_nil]
      exact Reads.pure _
  | cons g groups ih =>
      intro total done bounded
      rw [LocalGroup.total] at bounded
      have rest := ih (fun x mem => valid x (List.mem_cons_of_mem g mem)) (total + g.count.toNat)
        (g :: done) (by omega)
      rw [List.reverse_cons, List.append_assoc] at rest
      simp only [List.flatMap_cons, groupBytes, List.append_assoc]
      refine Reads.bind (Reads.u32 (Encode.unsigned_u32 g.count)) ?_
      simp only [throw_bind]
      exact Reads.guard (by omega)
        (Reads.bind (Reads.valType (valid g List.mem_cons_self)) rest)

theorem Codec.funcBody (early : Bool) :
    Codec (Decoder.funcBody early) Encode.funcBody
      (fun b => LocalGroup.Writable b.locals ∧ Instruction.Writable b.body) id where
  yields := by
    unfold Decoder.funcBody
    rw [count_bind]
    refine Yields.checked early (fun _ _ => Yields.failIn _ _) fun head n number => ?_
    refine Yields.bind (Yields.localGroups _ 0 []) fun first groups found => ?_
    refine Yields.bind (Codec.expr early).yields fun second body found' => Yields.pure ?_
    obtain ⟨new, equal, length, within, valid, short⟩ := found
    obtain rfl : new = groups := equal.symm
    obtain ⟨writable, short'⟩ := found'
    have few : new.length < 2 ^ 32 := length ▸ n.toNat_lt
    refine ⟨⟨⟨few, by simpa using within (Nat.zero_le _), valid⟩, writable⟩, ?_⟩
    have back : UInt32.ofNat new.length = n := by rw [length, UInt32.ofNat_toNat]
    have front := Encode.length_u32_le number
    have short : (new.flatMap fun g => Encode.u32 g.count ++ [g.type.code]).length ≤
      first.length := short
    simp only [Encode.funcBody, Encode.vector, Encode.length, back, List.length_append,
      List.length_nil]
    omega
  reads b writable := by
    obtain ⟨locals, body⟩ := writable
    unfold Decoder.funcBody
    rw [count_bind]
    have length : (UInt32.ofNat b.locals.length).toNat = b.locals.length :=
      UInt32.toNat_ofNat_of_lt' locals.few
    simp only [Encode.funcBody, Encode.vector, List.append_assoc]
    refine Reads.checked early (Encode.unsigned_u32 _) ?_ ?_
    · have parts : Parts (fun part g => part = groupBytes g) (b.locals.flatMap groupBytes)
          b.locals := Parts.flatMap fun _ _ => rfl
      have groups : b.locals.length ≤
          (b.locals.flatMap fun g => Encode.u32 g.count ++ [g.type.code]).length :=
        parts.length_le fun _ g equal => by simp [equal, groupBytes]
      rw [length, List.length_append]
      omega
    · rw [length]
      exact Reads.bind (Reads.localGroups locals.valid 0 [] (by simpa using locals.total))
        (Reads.bind_pure ((Codec.expr early).reads b.body body) rfl)

private theorem sizedBody_eq (b : FuncBody) : Encode.sizedBody b =
    Encode.length (Encode.funcBody b).length ++ Encode.funcBody b := rfl

theorem sizedBody_parts (early : Bool) (i : Nat) :
    Decoder.sizedBody early i = (do
      let size ← u32
      sized (window size.toNat) (inside (.func i) (Decoder.funcBody early)) fun body unread =>
        if unread.left != 0 then throw (.inside (.func i) (.trailing unread.left))
        else pure body) := by
  simp only [Decoder.sizedBody, throw_bind]
  rfl

theorem Codec.sizedBody (early : Bool) (i : Nat) :
    Codec (Decoder.sizedBody early i) Encode.sizedBody FuncBody.Writable id where
  yields := by
    rw [sizedBody_parts]
    refine Yields.bind Yields.u32 fun head size number => ?_
    refine Yields.sized (fun _ _ _ => Iff.rfl) (Codec.inside _ (Codec.funcBody early)).yields ?_ ?_
    · intro body unread some
      rw [if_pos (by simpa using some)]
      exact Yields.throw _
    · intro bytes body unread length found
      refine Yields.ite (fun _ => Yields.throw _) fun _ => Yields.pure ?_
      obtain ⟨⟨locals, writable⟩, short⟩ := found
      have fits : (Encode.funcBody body).length < 2 ^ 32 :=
        Nat.lt_of_le_of_lt short (length ▸ size.toNat_lt)
      have front := Encode.length_length_le number (Nat.le_trans short (Nat.le_of_eq length))
      rw [sizedBody_eq]
      simp only [List.length_append, List.length_nil]
      exact ⟨⟨locals, writable, fits⟩, by omega⟩
  reads b writable := by
    have size : (UInt32.ofNat (Encode.funcBody b).length).toNat = (Encode.funcBody b).length :=
      UInt32.toNat_ofNat_of_lt' writable.fits
    have fills := Reads.fills (Reads.inside (.func i)
      ((Codec.funcBody early).reads b ⟨writable.locals, writable.body⟩))
    rw [sizedBody_parts, sizedBody_eq]
    refine Reads.bind (Reads.u32 (Encode.unsigned_u32 _)) ?_
    rw [size]
    refine Reads.filled (fun _ _ _ => Iff.rfl) fills fun position => ?_
    exact Reads.guard (by simp [Reader.left]) (Reads.pure b)

end Decoder

end WasmMachine
