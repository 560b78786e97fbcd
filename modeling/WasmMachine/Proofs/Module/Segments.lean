/-
# Segments and their bytes

A segment can be written with several flags, and it remembers those it was read
with.  The flags that agree with a segment are singled out first; a segment is
read from the bytes written with any of them, and the ones the writer picks ask
for the fewest bytes.
-/

import WasmMachine.Proofs.Module.Items

namespace WasmMachine

/-! ## Element segments -/

/-- The segment as it is read back: the flags are the ones the writer picks. -/
def Element.canonical (e : Element) : Element := { e with flags := Encode.elementFlags e }

/-- What a segment holds: functions, or expressions of a reference type. -/
inductive Element.Entries : ValType → Option (List UInt32) → Option (List (List Instruction)) → Prop
  | funcs {funcs : List UInt32} : funcs.length < 2 ^ 32 → Entries .funcref (some funcs) none
  | exprs {type : ValType} {exprs : List (List Instruction)} :
      type.isRef → exprs.length < 2 ^ 32 → (∀ is ∈ exprs, Instruction.Writable is) →
      Entries type none (some exprs)

/-- Segments that have a spelling. Only an active one has a place. -/
structure Element.Writable (e : Element) : Prop where
  mode : e.mode = .active ∨ e.mode = .passive ∨ e.mode = .declarative
  offset : e.mode = .active → Instruction.Writable e.offset
  unplaced : e.mode ≠ .active → e.table = 0 ∧ e.offset = []
  entries : Element.Entries e.type e.funcs e.exprs

namespace Decoder

open Leb128

/-- The flags agree with a segment: they say how it is applied and what it holds, and
what they leave out has the value that is then assumed. -/
structure Agree (e : Element) (flags : UInt32) : Prop where
  known : ¬ 7 < flags
  mode : elementMode flags = e.mode
  exprs : (flags &&& 4 != 0) = e.exprs.isSome
  table : ¬ (e.mode = .active ∧ flags &&& 2 != 0) → e.table = 0
  type : flags &&& 3 = 0 → e.type = .funcref

private theorem Agree.of {e : Element} {flags : UInt32} (known : ¬ 7 < flags)
    (mode : elementMode flags = e.mode) (exprs : (flags &&& 4 != 0) = e.exprs.isSome)
    (table : e.table = 0 ∨ (e.mode = .active ∧ flags &&& 2 != 0))
    (type : e.type = .funcref ∨ flags &&& 3 ≠ 0) : Agree e flags :=
  ⟨known, mode, exprs, fun unnamed => table.resolve_right unnamed,
    fun short => type.resolve_right fun long => long short⟩

theorem isSome_exprs {type : ValType} {funcs : Option (List UInt32)}
    {exprs : Option (List (List Instruction))} (entries : Element.Entries type funcs exprs) :
    type ≠ .unknown ∧ (exprs.isSome = false → type = .funcref) := by
  cases entries with
  | funcs _ => exact ⟨by decide, fun _ => rfl⟩
  | exprs reference _ _ =>
      refine ⟨?_, fun none => absurd none (by simp)⟩
      rintro rfl
      exact absurd reference (by decide)

/-- The writer names the table of an active segment only when it has to. -/
theorem elementFlags_active {e : Element} (writable : e.Writable) (active : e.mode = .active) :
    Encode.elementFlags e =
      if e.table = 0 ∧ e.type = .funcref then (if e.exprs.isSome then 4 else 0)
      else (if e.exprs.isSome then 6 else 2) := by
  obtain ⟨known, funcs⟩ := isSome_exprs writable.entries
  unfold Encode.elementFlags
  rw [active]
  by_cases some : e.exprs.isSome
  · by_cases zero : e.table = 0
    · by_cases func : e.type = .funcref
      · simp [some, zero, func, SegmentMode.active, SegmentMode.passive, SegmentMode.declarative]
      · simp [some, zero, func, known, SegmentMode.active, SegmentMode.passive,
          SegmentMode.declarative]
        rfl
    · simp [some, zero, SegmentMode.active, SegmentMode.passive, SegmentMode.declarative]
      rfl
  · have func := funcs (by simpa using some)
    by_cases zero : e.table = 0
    · simp [some, zero, func, SegmentMode.active, SegmentMode.passive, SegmentMode.declarative]
    · simp [some, zero, SegmentMode.active, SegmentMode.passive, SegmentMode.declarative]

theorem elementFlags_passive {e : Element} (passive : e.mode = .passive) :
    Encode.elementFlags e = if e.exprs.isSome then 5 else 1 := by
  unfold Encode.elementFlags
  rw [passive]
  cases e.exprs.isSome
  · rfl
  · simp [SegmentMode.passive]
    rfl

theorem elementFlags_declarative {e : Element} (declarative : e.mode = .declarative) :
    Encode.elementFlags e = if e.exprs.isSome then 7 else 3 := by
  unfold Encode.elementFlags
  rw [declarative]
  cases e.exprs.isSome
  · rfl
  · simp [SegmentMode.passive, SegmentMode.declarative]
    rfl

/-- The flags that the writer picks agree with the segment. -/
theorem agree_elementFlags {e : Element} (writable : e.Writable) :
    Agree e (Encode.elementFlags e) := by
  have unplaced : e.mode ≠ .active → e.table = 0 := fun placed => (writable.unplaced placed).1
  rcases writable.mode with mode | mode | mode
  · rw [elementFlags_active writable mode]
    by_cases short : e.table = 0 ∧ e.type = .funcref
    · rw [if_pos short]
      cases some : e.exprs.isSome
      · exact .of (by decide) (by rw [mode]; decide) (by rw [some]; decide) (.inl short.1)
          (.inl short.2)
      · exact .of (by decide) (by rw [mode]; decide) (by rw [some]; decide) (.inl short.1)
          (.inl short.2)
    · rw [if_neg short]
      cases some : e.exprs.isSome
      · exact .of (by decide) (by rw [mode]; decide) (by rw [some]; decide)
          (.inr ⟨mode, by decide⟩) (.inr (by decide))
      · exact .of (by decide) (by rw [mode]; decide) (by rw [some]; decide)
          (.inr ⟨mode, by decide⟩) (.inr (by decide))
  · have zero := unplaced (by rw [mode]; decide)
    rw [elementFlags_passive mode]
    cases some : e.exprs.isSome
    · exact .of (by decide) (by rw [mode]; decide) (by rw [some]; decide) (.inl zero)
        (.inr (by decide))
    · exact .of (by decide) (by rw [mode]; decide) (by rw [some]; decide) (.inl zero)
        (.inr (by decide))
  · have zero := unplaced (by rw [mode]; decide)
    rw [elementFlags_declarative mode]
    cases some : e.exprs.isSome
    · exact .of (by decide) (by rw [mode]; decide) (by rw [some]; decide) (.inl zero)
        (.inr (by decide))
    · exact .of (by decide) (by rw [mode]; decide) (by rw [some]; decide) (.inl zero)
        (.inr (by decide))

end Decoder

/-- The entries of a segment as they are written. -/
def Encode.elementEntries (funcs : Option (List UInt32))
    (exprs : Option (List (List Instruction))) : List UInt8 :=
  match exprs with
  | some exprs => vector expr exprs
  | none => vector u32 (funcs.getD [])

/-- A segment written with given flags. -/
def Encode.elementWith (flags : UInt32) (e : Element) : List UInt8 :=
  u32 flags
    ++ ((if e.mode = .active ∧ flags &&& 2 != 0 then u32 e.table else [])
      ++ ((if e.mode = .active then expr e.offset else [])
        ++ ((if flags &&& 3 != 0 then [if e.exprs.isSome then e.type.code else 0] else [])
          ++ elementEntries e.funcs e.exprs)))

theorem Encode.element_eq {e : Element} (writable : e.Writable) :
    element e = elementWith (elementFlags e) e := by
  obtain ⟨known, -⟩ := Decoder.isSome_exprs writable.entries
  unfold element elementWith
  by_cases active : e.mode = .active
  · simp [active, known]
    rfl
  · simp [active, known]
    rfl

namespace Decoder

/-- The table of an active segment, where it is named. -/
def elementTable (flags : UInt32) : Decoder UInt32 :=
  if elementMode flags = .active ∧ flags &&& 2 != 0 then u32 else pure 0

/-- The offset of an active segment. -/
def elementOffset (early : Bool) (flags : UInt32) : Decoder (List Instruction) :=
  if elementMode flags = .active then expr early else pure []

/-- The entries of a segment, as functions or as expressions. -/
def elementEntries (early : Bool) (flags : UInt32) :
    Decoder (Option (List UInt32) × Option (List (List Instruction))) :=
  if flags &&& 4 != 0 then do return (none, some (← vector early fun _ => expr early))
  else do return (some (← vector early fun _ => u32), none)

/-- An element segment is read part by part. -/
theorem element_parts (early : Bool) :
    Decoder.element early = (do
      let flags ← u32
      if 7 < flags then throw (.elementFlags flags)
      else do
        let table ← elementTable flags
        let offset ← elementOffset early flags
        let type ← elementType flags
        let (funcs, exprs) ← elementEntries early flags
        return ⟨elementMode flags, flags, table, type, offset, funcs, exprs⟩) := by
  simp only [Decoder.element, elementTable, elementOffset, elementEntries, throw_bind, ite_bind,
    pure_bind, bind_assoc]

private theorem Reads.elementType {e : Element} {flags : UInt32} (writable : e.Writable)
    (agree : Agree e flags) :
    Reads (Decoder.elementType flags)
      (if flags &&& 3 != 0 then [if e.exprs.isSome then e.type.code else 0] else []) e.type := by
  unfold Decoder.elementType
  simp only [throw_bind]
  by_cases short : flags &&& 3 = 0
  · simp only [short, agree.type short]
    exact Reads.pure _
  · simp only [bne_iff_ne, beq_iff_eq, short, ne_eq, not_false_eq_true, if_true, if_false]
    have exprs := agree.exprs
    obtain ⟨mode, _, table, type, offset, funcs, items⟩ := e
    have entries := writable.entries
    cases entries with
    | funcs _ =>
        have none : flags &&& 4 = 0 := by simpa using exprs
        simp only [none, not_true_eq_false, if_false]
        refine Reads.bind_pure (Reads.byte 0) ?_
        rfl
    | exprs reference _ _ =>
        have some : flags &&& 4 ≠ 0 := by simpa using exprs
        simp only [some, not_false_eq_true, if_true]
        refine Reads.bind_pure (Reads.valType (ValType.isValid_of_isRef reference)) ?_
        simp [reference]

/-- A segment written with flags that agree with it is read with these flags. -/
private theorem Reads.elementWith (early : Bool) {e : Element} {flags : UInt32}
    (writable : e.Writable) (agree : Agree e flags) :
    Reads (Decoder.element early) (Encode.elementWith flags e) { e with flags := flags } := by
  rw [element_parts]
  refine Reads.bind (Reads.u32 (Encode.unsigned_u32 flags)) (Reads.guard agree.known ?_)
  refine Reads.bind (a := e.table) ?_ (Reads.bind (a := e.offset) ?_
    (Reads.bind (Reads.elementType writable agree)
      (Reads.bind_pure (a := (e.funcs, e.exprs)) ?_ ?_)))
  · rw [elementTable, agree.mode]
    split
    · exact Reads.u32 (Encode.unsigned_u32 e.table)
    · next unnamed =>
        rw [agree.table unnamed]
        exact Reads.pure 0
  · rw [elementOffset, agree.mode]
    split
    · next active => exact (Codec.expr early).reads e.offset (writable.offset active)
    · next inactive =>
        rw [(writable.unplaced inactive).2]
        exact Reads.pure []
  · rw [elementEntries, agree.exprs]
    obtain ⟨mode, _, table, type, offset, funcs, exprs⟩ := e
    have entries := writable.entries
    cases entries with
    | @funcs funcs few =>
        have reads := (Codec.vector early (fun _ => Codec.u32) Codec.u32_ne_nil).reads funcs
          ⟨few, fun _ _ => trivial⟩
        rw [List.map_id] at reads
        exact Reads.bind_pure reads rfl
    | @exprs _ exprs _ few fine =>
        have reads := (Codec.vector early (fun _ => Codec.expr early) Codec.expr_ne_nil).reads exprs
          ⟨few, fine⟩
        rw [List.map_id] at reads
        exact Reads.bind_pure reads rfl
  · rw [agree.mode]

private theorem Yields.elementType (flags : UInt32) :
    Yields (Decoder.elementType flags) fun bytes type =>
      type.isRef ∧ (flags &&& 4 = 0 → type = .funcref) ∧ (flags &&& 3 = 0 → type = .funcref) ∧
        bytes.length = if flags &&& 3 != 0 then 1 else 0 := by
  unfold Decoder.elementType
  simp only [throw_bind]
  refine Yields.ite (fun short => Yields.pure ?_) fun long => ?_
  · have short : flags &&& 3 = 0 := by simpa using short
    exact ⟨rfl, fun _ => rfl, fun _ => rfl, by simp [short]⟩
  · have long : flags &&& 3 ≠ 0 := by simpa using long
    refine Yields.ite (fun exprs => ?_) fun funcs => ?_
    · have exprs : flags &&& 4 ≠ 0 := by simpa using exprs
      refine Yields.bind Yields.valType fun bytes type found => ?_
      obtain ⟨rfl, -⟩ := found
      refine Yields.ite (fun _ => Yields.throw _) fun reference => Yields.pure ?_
      exact ⟨by simpa using reference, fun none => absurd none exprs,
        fun short => absurd short long, by simp [long]⟩
    · refine Yields.bind Yields.byte fun bytes kind taken => ?_
      subst taken
      refine Yields.ite (fun _ => Yields.throw _) fun _ => Yields.pure ?_
      exact ⟨rfl, fun _ => rfl, fun _ => rfl, by simp [long]⟩

theorem elementMode_cases (flags : UInt32) :
    elementMode flags = .active ∨ elementMode flags = .passive ∨
      elementMode flags = .declarative := by
  unfold elementMode
  split
  · exact .inl rfl
  · split
    · exact .inr (.inl rfl)
    · exact .inr (.inr rfl)

private theorem Yields.elementTable (flags : UInt32) :
    Yields (Decoder.elementTable flags) fun bytes table =>
      if elementMode flags = .active ∧ flags &&& 2 != 0 then
        (Encode.u32 table).length ≤ bytes.length
      else table = 0 := by
  unfold Decoder.elementTable
  refine Yields.ite (fun named => ?_) fun unnamed => ?_
  · exact Yields.u32.mono fun bytes n number => by
      rw [if_pos named]
      exact Encode.length_u32_le number
  · exact Yields.pure (by rw [if_neg unnamed])

private theorem Yields.elementOffset (early : Bool) (flags : UInt32) :
    Yields (Decoder.elementOffset early flags) fun bytes offset =>
      if elementMode flags = .active then
        Instruction.Writable offset ∧ (Encode.expr offset).length ≤ bytes.length
      else offset = [] := by
  unfold Decoder.elementOffset
  refine Yields.ite (fun active => ?_) fun inactive => ?_
  · exact (Codec.expr early).yields.mono fun bytes is found => by
      rw [if_pos active]
      exact found
  · exact Yields.pure (by rw [if_neg inactive])

private theorem Yields.elementEntries (early : Bool) (flags : UInt32) (type : ValType) :
    Yields (Decoder.elementEntries early flags) fun bytes entries =>
      (flags &&& 4 != 0) = entries.2.isSome ∧
      ((flags &&& 4 = 0 → type = .funcref) → type.isRef →
        Element.Entries type entries.1 entries.2) ∧
      (Encode.elementEntries entries.1 entries.2).length ≤ bytes.length := by
  unfold Decoder.elementEntries
  refine Yields.ite (fun exprs => ?_) fun funcs => ?_
  · refine Yields.bind (Codec.vector early (fun _ => Codec.expr early) Codec.expr_ne_nil).yields
      fun bytes items found => Yields.pure ?_
    obtain ⟨⟨few, fine⟩, short⟩ := found
    rw [List.append_nil]
    exact ⟨exprs, fun _ reference => .exprs reference few fine, short⟩
  · refine Yields.bind (Codec.vector early (fun _ => Codec.u32) Codec.u32_ne_nil).yields
      fun bytes items found => Yields.pure ?_
    obtain ⟨⟨few, -⟩, short⟩ := found
    have none : flags &&& 4 = 0 := by simpa using funcs
    rw [List.append_nil]
    refine ⟨by simp [none], fun func _ => ?_, short⟩
    rw [func none]
    exact .funcs few

/-- What is read as a segment agrees with its flags, and is written with them in no
more bytes. -/
private theorem Yields.element (early : Bool) :
    Yields (Decoder.element early) fun bytes e =>
      e.Writable ∧ ∃ flags, Agree e flags ∧
        (Encode.elementWith flags e).length ≤ bytes.length := by
  rw [element_parts]
  refine Yields.bind Yields.u32 fun head flags number => ?_
  refine Yields.ite (fun _ => Yields.throw _) fun known => ?_
  refine Yields.bind (Yields.elementTable flags) fun first table found => ?_
  refine Yields.bind (Yields.elementOffset early flags) fun second offset found' => ?_
  refine Yields.bind (Yields.elementType flags) fun third type typed => ?_
  refine Yields.bind (Yields.elementEntries early flags type) fun fourth entries found'' => ?_
  obtain ⟨funcs, exprs⟩ := entries
  obtain ⟨reference, byFunc, byDefault, one⟩ := typed
  obtain ⟨sort, entries, short⟩ := found''
  refine Yields.pure ⟨⟨elementMode_cases flags, ?_, ?_, entries byFunc reference⟩, flags,
    ⟨known, rfl, sort, ?_, byDefault⟩, ?_⟩
  · intro active
    rw [if_pos active] at found'
    exact found'.1
  · intro inactive
    rw [if_neg inactive] at found'
    rw [if_neg fun named => inactive named.1] at found
    exact ⟨found, found'⟩
  · intro unnamed
    rw [if_neg unnamed] at found
    exact found
  · have front := Encode.length_u32_le number
    have fourth' : (Encode.elementEntries funcs exprs).length ≤ fourth.length := short
    simp only [Encode.elementWith, List.length_append, List.append_nil]
    have third' : ∀ b : UInt8, (if flags &&& 3 != 0 then [b] else []).length = third.length := by
      intro b
      rw [one]
      split
      · rfl
      · rfl
    have first' : (if elementMode flags = .active ∧ flags &&& 2 != 0 then Encode.u32 table
        else []).length ≤ first.length := by
      split
      · next named => rwa [if_pos named] at found
      · exact Nat.zero_le _
    have second' : (if elementMode flags = .active then Encode.expr offset
        else []).length ≤ second.length := by
      split
      · next active =>
          rw [if_pos active] at found'
          exact found'.2
      · exact Nat.zero_le _
    rw [third']
    omega

/-- Which flags of an active segment leave out the table and the type. -/
private theorem active_flags {flags : UInt32} (known : ¬ 7 < flags) :
    (flags &&& 3 = 0 → elementMode flags = .active ∧ flags &&& 2 = 0) ∧
      (elementMode flags = .active → flags &&& 2 = 0 → flags &&& 3 = 0) := by
  have checked : ∀ n < 8,
      (UInt32.ofNat n &&& 3 = 0 →
          elementMode (UInt32.ofNat n) = .active ∧ UInt32.ofNat n &&& 2 = 0) ∧
        (elementMode (UInt32.ofNat n) = .active → UInt32.ofNat n &&& 2 = 0 →
          UInt32.ofNat n &&& 3 = 0) := by decide
  rw [UInt32.not_lt, UInt32.le_iff_toNat_le] at known
  simpa using checked flags.toNat (Nat.lt_succ_of_le known)

/-- Where agreeing flags name neither table nor type the writer does not either. -/
private theorem elementFlags_of_short {e : Element} {flags : UInt32} (writable : e.Writable)
    (agree : Agree e flags) (active : e.mode = .active) (short : flags &&& 2 = 0) :
    Encode.elementFlags e &&& 3 = 0 := by
  have mode := agree.mode.trans active
  have zero := agree.table (by simp [short])
  have func := agree.type ((active_flags agree.known).2 mode short)
  rw [elementFlags_active writable active, if_pos ⟨zero, func⟩]
  split
  · rfl
  · rfl

private theorem length_u32_one {n : UInt32} (small : ¬ 7 < n) : (Encode.u32 n).length = 1 := by
  rw [UInt32.not_lt, UInt32.le_iff_toNat_le] at small
  have last : n.toNat / 128 = 0 := Nat.div_eq_of_lt (Nat.lt_of_le_of_lt small (by decide))
  simp [Encode.u32, Encode.unsignedGroups, last]

/-- The writer's flags ask for no more than any that agree. -/
private theorem length_elementWith_le {e : Element} {flags : UInt32} (writable : e.Writable)
    (agree : Agree e flags) :
    (Encode.elementWith (Encode.elementFlags e) e).length ≤
      (Encode.elementWith flags e).length := by
  have own := agree_elementFlags writable
  have one := length_u32_one own.known
  have one' := length_u32_one agree.known
  have short : e.mode = .active → flags &&& 2 = 0 → Encode.elementFlags e &&& 3 = 0 :=
    elementFlags_of_short writable agree
  have place : (if e.mode = .active ∧ Encode.elementFlags e &&& 2 != 0 then Encode.u32 e.table
      else []).length ≤ (if e.mode = .active ∧ flags &&& 2 != 0 then Encode.u32 e.table
      else []).length := by
    by_cases named : e.mode = .active ∧ flags &&& 2 != 0
    · rw [if_pos named]
      split
      · exact Nat.le_refl _
      · exact Nat.zero_le _
    · have unnamed : ¬ (e.mode = .active ∧ Encode.elementFlags e &&& 2 != 0) := by
        rintro ⟨active, names⟩
        have both := short active (by simpa [active] using named)
        exact absurd ((active_flags own.known).1 both).2 (by simpa using names)
      rw [if_neg unnamed]
      exact Nat.zero_le _
  have kind : ∀ b : UInt8, (if Encode.elementFlags e &&& 3 != 0 then [b] else []).length ≤
      (if flags &&& 3 != 0 then [b] else []).length := by
    intro b
    by_cases default : flags &&& 3 = 0
    · obtain ⟨active, none⟩ := (active_flags agree.known).1 default
      simp [default, short (agree.mode.symm.trans active) none]
    · simp only [bne_iff_ne, ne_eq, default, not_false_eq_true, if_true]
      split
      · exact Nat.le_refl _
      · exact Nat.zero_le _
  have kind := kind (if e.exprs.isSome then e.type.code else 0)
  simp only [Encode.elementWith, List.length_append]
  omega

theorem Codec.element (early : Bool) :
    Codec (Decoder.element early) Encode.element Element.Writable Element.canonical where
  yields := by
    refine (Yields.element early).mono fun bytes e found => ?_
    obtain ⟨writable, flags, agree, short⟩ := found
    rw [Encode.element_eq writable]
    exact ⟨writable, Nat.le_trans (length_elementWith_le writable agree) short⟩
  reads e writable := by
    rw [Encode.element_eq writable]
    exact Reads.elementWith early writable (agree_elementFlags writable)

end Decoder

/-! ## Data segments -/

/-- The flags that the writer picks for a data segment. -/
def Encode.dataFlags (d : DataSegment) : UInt32 :=
  if d.mode = .passive then 1 else if d.memory != 0 then 2 else 0

/-- The segment as it is read back: the flags are the ones the writer picks. -/
def DataSegment.canonical (d : DataSegment) : DataSegment := { d with flags := Encode.dataFlags d }

/-- Segments that have a spelling. Only an active one has a place. -/
structure DataSegment.Writable (d : DataSegment) : Prop where
  mode : d.mode = .active ∨ d.mode = .passive
  offset : d.mode = .active → Instruction.Writable d.offset
  unplaced : d.mode ≠ .active → d.memory = 0 ∧ d.offset = []
  few : d.init.length < 2 ^ 32

section

variable (flags memory : UInt32) (offset : List Instruction) (init : List UInt8)

theorem Encode.dataSegment_passive : dataSegment ⟨.passive, flags, memory, offset, init⟩ =
    u32 1 ++ (length init.length ++ init) := rfl

theorem Encode.dataSegment_default : dataSegment ⟨.active, flags, 0, offset, init⟩ =
    u32 0 ++ (expr offset ++ (length init.length ++ init)) := by
  simp [dataSegment, SegmentMode.active, SegmentMode.passive]

theorem Encode.dataSegment_named {memory : UInt32} (some : memory ≠ 0) :
    dataSegment ⟨.active, flags, memory, offset, init⟩ =
      u32 2 ++ (u32 memory ++ (expr offset ++ (length init.length ++ init))) := by
  simp [dataSegment, SegmentMode.active, SegmentMode.passive, some]

end

namespace Decoder

open Leb128

/-- The end of a segment: bytes behind their number. -/
def dataTail (flags memory : UInt32) (offset : List Instruction) : Decoder DataSegment := do
  let size ← u32
  let init ← bytes size.toNat
  return ⟨if flags == 1 then .passive else .active, flags, memory, offset, init⟩

theorem dataSegment_parts (early : Bool) (i : Nat) :
    Decoder.dataSegment early i = (do
      let flags ← u32
      if 2 < flags then throw (.dataFlags flags)
      else do
        let memory ← if flags == 2 then u32 else pure 0
        let offset ← if flags == 1 then pure [] else inside (.dataOffset i) (expr early)
        dataTail flags memory offset) := by
  simp only [Decoder.dataSegment, throw_bind, pure_bind]
  rfl

private theorem Reads.dataTail {flags memory : UInt32} {offset : List Instruction}
    {init : List UInt8} (few : init.length < 2 ^ 32) :
    Reads (Decoder.dataTail flags memory offset) (Encode.length init.length ++ init)
      ⟨if flags == 1 then .passive else .active, flags, memory, offset, init⟩ := by
  have size : (UInt32.ofNat init.length).toNat = init.length := UInt32.toNat_ofNat_of_lt' few
  refine Reads.bind (Reads.u32 (Encode.unsigned_u32 _)) ?_
  rw [size]
  exact Reads.bind_pure (Reads.bytes init) rfl

private theorem Yields.dataTail (flags memory : UInt32) (offset : List Instruction) :
    Yields (Decoder.dataTail flags memory offset) fun bytes d =>
      ∃ init, d = ⟨if flags == 1 then .passive else .active, flags, memory, offset, init⟩ ∧
        init.length < 2 ^ 32 ∧ (Encode.length init.length ++ init).length ≤ bytes.length := by
  refine Yields.bind Yields.u32 fun head size number => ?_
  refine Yields.bind (Yields.bytes _) fun bytes init found => Yields.pure ?_
  obtain ⟨rfl, length⟩ := found
  have front := Encode.length_length_le number (Nat.le_of_eq length)
  refine ⟨bytes, rfl, length ▸ size.toNat_lt, ?_⟩
  simp only [List.length_append, List.length_nil]
  omega

/-- A segment with a place: the table of contents says where the memory stands. -/
private theorem Yields.dataPlace (early : Bool) (i : Nat) (flags : UInt32) (known : ¬ 2 < flags) :
    Yields (do
      let memory ← if flags == 2 then Decoder.u32 else Pure.pure 0
      let offset ← if flags == 1 then Pure.pure [] else
        Decoder.inside (.dataOffset i) (Decoder.expr early)
      Decoder.dataTail flags memory offset) fun bytes d =>
        d.Writable ∧ (Encode.dataSegment d).length ≤ bytes.length + 1 := by
  have cases : flags = 2 ∨ flags = 1 ∨ flags = 0 := by
    rw [UInt32.not_lt, UInt32.le_iff_toNat_le] at known
    have two : (2 : UInt32).toNat = 2 := rfl
    simp only [← UInt32.toNat_inj]
    simp
    omega
  rcases cases with rfl | rfl | rfl
  · refine Yields.bind Yields.u32 fun first memory number => ?_
    refine Yields.bind (Codec.inside _ (Codec.expr early)).yields fun second offset found => ?_
    refine (Yields.dataTail _ _ _).mono fun third d found' => ?_
    obtain ⟨init, rfl, few, short⟩ := found'
    obtain ⟨writable, short'⟩ := found
    have front := Encode.length_u32_le number
    refine ⟨⟨.inl rfl, fun _ => writable, fun inactive => absurd rfl inactive, few⟩, ?_⟩
    by_cases zero : memory = 0
    · subst zero
      have one := length_u32_one (n := 0) (by decide)
      change (Encode.dataSegment ⟨.active, 2, 0, offset, init⟩).length ≤ _
      rw [Encode.dataSegment_default]
      simp only [List.length_append] at short ⊢
      omega
    · have one := length_u32_one (n := 2) (by decide)
      change (Encode.dataSegment ⟨.active, 2, memory, offset, init⟩).length ≤ _
      rw [Encode.dataSegment_named _ _ _ zero]
      simp only [List.length_append] at short ⊢
      omega
  · refine Yields.bind (Yields.pure (P := fun bs n => bs = [] ∧ n = 0) ⟨rfl, rfl⟩)
      fun first memory found => ?_
    obtain ⟨rfl, rfl⟩ := found
    refine Yields.bind (Yields.pure (P := fun bs is => bs = [] ∧ is = []) ⟨rfl, rfl⟩)
      fun second offset found => ?_
    obtain ⟨rfl, rfl⟩ := found
    refine (Yields.dataTail _ _ _).mono fun third d found' => ?_
    obtain ⟨init, rfl, few, short⟩ := found'
    have passive : SegmentMode.passive ≠ .active := by decide
    refine ⟨⟨.inr rfl, fun active => absurd active passive, fun _ => ⟨rfl, rfl⟩, few⟩, ?_⟩
    have one := length_u32_one (n := 1) (by decide)
    change (Encode.dataSegment ⟨.passive, 1, 0, [], init⟩).length ≤ _
    rw [Encode.dataSegment_passive]
    simp only [List.length_append, List.length_nil] at short ⊢
    omega
  · refine Yields.bind (Yields.pure (P := fun bs n => bs = [] ∧ n = 0) ⟨rfl, rfl⟩)
      fun first memory found => ?_
    obtain ⟨rfl, rfl⟩ := found
    refine Yields.bind (Codec.inside _ (Codec.expr early)).yields fun second offset found => ?_
    refine (Yields.dataTail _ _ _).mono fun third d found' => ?_
    obtain ⟨init, rfl, few, short⟩ := found'
    obtain ⟨writable, short'⟩ := found
    refine ⟨⟨.inl rfl, fun _ => writable, fun inactive => absurd rfl inactive, few⟩, ?_⟩
    have one := length_u32_one (n := 0) (by decide)
    change (Encode.dataSegment ⟨.active, 0, 0, offset, init⟩).length ≤ _
    rw [Encode.dataSegment_default]
    simp only [List.length_append, List.length_nil] at short ⊢
    omega

theorem Codec.dataSegment (early : Bool) (i : Nat) :
    Codec (Decoder.dataSegment early i) Encode.dataSegment DataSegment.Writable
      DataSegment.canonical where
  yields := by
    rw [dataSegment_parts]
    refine Yields.bind Yields.u32 fun head flags number => ?_
    refine Yields.ite (fun _ => Yields.throw _) fun known => ?_
    have some := number.groups.length_pos
    refine (Yields.dataPlace early i flags known).mono fun bytes d found => ⟨found.1, ?_⟩
    rw [List.length_append]
    omega
  reads d writable := by
    obtain ⟨mode, flags, memory, offset, init⟩ := d
    obtain ⟨mode, fine, unplaced, few⟩ := writable
    rw [dataSegment_parts]
    simp only at mode fine unplaced few
    rcases mode with rfl | rfl
    · have place := (Codec.inside (.dataOffset i) (Codec.expr early)).reads offset (fine rfl)
      by_cases zero : memory = 0
      · subst zero
        rw [Encode.dataSegment_default]
        exact Reads.bind (Reads.u32 (Encode.unsigned_u32 0)) (Reads.guard (by decide)
          (Reads.bind_nil (Reads.pure 0) (Reads.bind place (Reads.dataTail few))))
      · have flags_eq : Encode.dataFlags ⟨.active, flags, memory, offset, init⟩ = 2 := by
          simp [Encode.dataFlags, SegmentMode.active, SegmentMode.passive, zero]
        rw [Encode.dataSegment_named _ _ _ zero, DataSegment.canonical, flags_eq]
        exact Reads.bind (Reads.u32 (Encode.unsigned_u32 2)) (Reads.guard (by decide)
          (Reads.bind (Reads.u32 (Encode.unsigned_u32 memory))
            (Reads.bind place (Reads.dataTail few))))
    · obtain ⟨rfl, rfl⟩ := unplaced (by decide)
      rw [Encode.dataSegment_passive]
      exact Reads.bind (Reads.u32 (Encode.unsigned_u32 1)) (Reads.guard (by decide)
        (Reads.bind_nil (Reads.pure 0) (Reads.bind_nil (Reads.pure []) (Reads.dataTail few))))

/-! ## Custom sections -/

/-- A custom section takes all that its window holds. -/
theorem customSection_fills {c : CustomSection} {title : List UInt8} (named : Named title c.name)
    (position : Nat) :
    Decoder.customSection ⟨position, title ++ c.data⟩ =
      .ok c ⟨position + (title ++ c.data).length, []⟩ := by
  have read := Reads.name named position c.data
  have rest := Reads.fills (Reads.bytes c.data) (position + title.length)
  simp only [Decoder.customSection, bind_eq_ok_iff]
  refine ⟨_, _, read, _, _, rfl, _, _, rest, ?_⟩
  rw [List.length_append, ← Nat.add_assoc]
  rfl

theorem Yields.customSection : Yields Decoder.customSection fun bytes c =>
    nameFits c.name ∧ (Encode.customSection c).length ≤ bytes.length := by
  refine Yields.bind Codec.name.yields fun head title found => ?_
  refine Yields.bind Yields.left fun none n taken => ?_
  subst taken
  refine Yields.bind (Yields.bytes n) fun bytes data found' => Yields.pure ?_
  obtain ⟨few, short⟩ := found
  obtain ⟨rfl, -⟩ := found'
  refine ⟨few, ?_⟩
  simp only [Encode.customSection, List.length_append, List.length_nil]
  omega

end Decoder

end WasmMachine
