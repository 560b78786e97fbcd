/-
# Modules come back from their bytes

A module that was decoded can be encoded again: the bytes decode to the same
module, up to the flags of segments, which the writer picks anew.  Encoding what
comes back gives the same bytes, and there are no more of them than the module was
decoded from.

The writer puts the sections in the order in which the reader admits them, so
reading back takes one kind of section after the other.
-/

import WasmMachine.Proofs.Module.Sections

namespace WasmMachine

open Decoder Leb128

namespace Module

/-- Different kinds are taken independently. -/
theorem take_comm (m m' done : Module) {kind kind' : SectionKind} (other : kind ≠ kind') :
    m'.take (m.take done kind) kind' = m.take (m'.take done kind') kind := by
  cases kind <;> cases kind' <;> first | rfl | exact absurd rfl other

/-- Nothing of a kind was taken yet. -/
def Lacks (done : Module) (kind : SectionKind) : Prop := take {} done kind = done

theorem Lacks.take {done : Module} {kind kind' : SectionKind} (lacks : done.Lacks kind')
    (m : Module) (other : kind ≠ kind') : (m.take done kind).Lacks kind' := by
  rw [Lacks, take_comm m {} done other, lacks]

/-- Taking everything there is gives the whole module. -/
theorem take_all (m : Module) :
    m.take (sectionOrder.dropLast.foldl m.take {}) .custom = m := by
  simp [sectionOrder, take]

theorem lacks_empty (kind : SectionKind) : ({} : Module).Lacks kind := by
  cases kind <;> rfl

end Module

namespace Decoder

/-- Sections behind the place `low` in the order complete a module. -/
def Completes (early : Bool) (low : Nat) (m : Module) (bytes : List UInt8) (m' : Module) : Prop :=
  ∀ fuel last position, last ≤ low → bytes.length < fuel →
    sections early fuel last m ⟨position, bytes⟩ = .ok m' ⟨position + bytes.length, []⟩

theorem within_eq_ok {α : Type} {place : Place} {step : Decoder α} {inner unread r : Reader} {a : α}
    (ran : step inner = .ok a unread) : within inner (inside place step) r = .ok (a, unread) r := by
  simp only [within, inside, ran]

theorem sectionKind_of_above {last : Nat} {kind : SectionKind}
    (above : kind ≠ .custom → last < kind.order) :
    sectionKind last kind.id = Pure.pure kind := by
  cases kind
  case custom => rfl
  all_goals exact if_neg (Nat.not_le.mpr (above (by decide)))

namespace Completes

variable {early : Bool} {low : Nat} {m m' m'' : Module} {bytes : List UInt8}

theorem nil : Completes early low m [] m := by
  intro fuel last position _ enough
  cases fuel with
  | zero => exact absurd enough (Nat.not_lt_zero _)
  | succ fuel => rw [sections_step]; rfl

theorem mono {high : Nat} (completes : Completes early high m bytes m') (lower : low ≤ high) :
    Completes early low m bytes m' := fun fuel last position first enough =>
  completes fuel last position (Nat.le_trans first lower) enough

/-- A section behind its size, however that is spelled, whose contents fill it. -/
theorem sized {kind : SectionKind} {head payload : List UInt8} {size : UInt32}
    (number : Unsigned head size) (length : payload.length = size.toNat)
    (above : kind ≠ .custom → low < kind.order)
    (fills : ∀ position, sectionContents early m kind ⟨position, payload⟩ =
      .ok m' ⟨position + payload.length, []⟩)
    (rest : Completes early (if kind = .custom then low else kind.order) m' bytes m'') :
    Completes early low m (kind.id :: (head ++ payload) ++ bytes) m'' := by
  intro fuel last position lower enough
  cases fuel with
  | zero => exact absurd enough (Nat.not_lt_zero _)
  | succ fuel =>
      have sizeRead := Reads.locate "section size" (Reads.u32 number)
      have cut := Reads.window payload (position + 1 + head.length) bytes
      have admitted : sectionKind last kind.id = Pure.pure kind :=
        sectionKind_of_above fun ordinary => Nat.lt_of_le_of_lt lower (above ordinary)
      have lower' : (if kind = .custom then last else kind.order) ≤
          if kind = .custom then low else kind.order := by
        split
        · exact lower
        · exact Nat.le_refl _
      simp only [List.cons_append, List.append_assoc, List.length_cons,
        List.length_append] at enough ⊢
      rw [sections_step]
      refine bind_eq_ok_iff.mpr ⟨_, _, rfl, ?_⟩
      rw [if_neg (by simp [Reader.left])]
      refine bind_eq_ok_iff.mpr ⟨_, _, Reads.locate _ (Reads.byte kind.id) _ _, ?_⟩
      rw [admitted, pure_bind]
      refine bind_eq_ok_iff.mpr ⟨_, _, sizeRead _ _, ?_⟩
      rw [← length]
      refine bind_eq_ok_iff.mpr ⟨_, _, locate_eq_ok_iff.mpr cut, ?_⟩
      refine bind_eq_ok_iff.mpr ⟨_, _, within_eq_ok (fills _), ?_⟩
      dsimp only
      rw [if_neg (by simp [Reader.left]), rest fuel _ _ lower' (by omega)]
      congr 2
      omega

/-- The same for a section as the writer puts it. -/
theorem section_ {kind : SectionKind} {payload : List UInt8}
    (above : kind ≠ .custom → low < kind.order) (small : payload.length < 2 ^ 32)
    (fills : ∀ position, sectionContents early m kind ⟨position, payload⟩ =
      .ok m' ⟨position + payload.length, []⟩)
    (rest : Completes early (if kind = .custom then low else kind.order) m' bytes m'') :
    Completes early low m (Encode.section_ kind.id payload ++ bytes) m'' :=
  sized (Encode.unsigned_u32 (.ofNat payload.length)) (UInt32.toNat_ofNat_of_lt' small).symm above
    fills rest

/-- The sections of a kind, as far as there are any. -/
theorem part {done : Module} {kind : SectionKind} (writable : m.Writable)
    (ordinary : kind ≠ .custom) (above : low < kind.order) (lacks : done.Lacks kind)
    (rest : Completes early kind.order (m.canonical.take done kind) bytes m') :
    Completes early low done (m.part kind ++ bytes) m' := by
  have rest' : Completes early (if kind = .custom then low else kind.order)
      (m.canonical.take done kind) bytes m' := by
    rwa [if_neg ordinary]
  have none (empty : m.canonical.take done kind = Module.take {} done kind) :
      Completes early low done bytes m' := by
    rw [empty, lacks] at rest
    exact rest.mono (Nat.le_of_lt above)
  have empty : ({} : Module).canonical.take done kind = done := lacks
  cases field_of_ordinary early ordinary with
  | list get put field =>
      have fits := field.fits m writable
      rw [field.takes] at rest rest'
      rw [field.takes, field.empty] at empty
      rw [field.part, Encode.listSection]
      split
      · next none =>
          rw [List.isEmpty_iff.mp none, empty] at rest
          exact rest.mono (Nat.le_of_lt above)
      · refine section_ (fun _ => above) fits.fits (Reads.fills ?_) rest'
        rw [field.contents]
        exact Reads.bind_pure ((Codec.vector early field.codec field.some).reads _
          ⟨fits.few, fits.fine⟩) rfl
  | number get put field =>
      rw [field.takes] at rest rest'
      rw [field.takes, field.empty] at empty
      rw [field.part]
      cases found : get m with
      | none =>
          rw [found, empty] at rest
          exact rest.mono (Nat.le_of_lt above)
      | some n =>
          rw [found] at rest'
          refine section_ (fun _ => above) (Encode.length_u32_lt n) (Reads.fills ?_) rest'
          rw [field.contents]
          exact Reads.bind_pure (Reads.u32 (Encode.unsigned_u32 n)) rfl

/-- Custom sections, whatever stands in front of them. -/
theorem customs (cs : List CustomSection) (done : Module) (writable : ∀ c ∈ cs, c.Writable) :
    Completes early low done (cs.flatMap fun c => Encode.section_ 0 (Encode.customSection c))
      { done with customs := done.customs ++ cs } := by
  induction cs generalizing done with
  | nil =>
      rw [List.append_nil]
      exact nil
  | cons c cs ih =>
      have fine := writable c List.mem_cons_self
      have rest := ih { done with customs := done.customs ++ [c] }
        fun x mem => writable x (List.mem_cons_of_mem c mem)
      rw [List.append_assoc] at rest
      have fills (position : Nat) : sectionContents early done .custom
          ⟨position, Encode.customSection c⟩ =
            .ok { done with customs := done.customs ++ [c] }
              ⟨position + (Encode.customSection c).length, []⟩ :=
        bind_eq_ok_iff.mpr ⟨c, _, customSection_fills (named_name fine.name) position, rfl⟩
      exact section_ (fun ordinary => absurd rfl ordinary) fine.fits fills rest

/-- Sections of several kinds in their order, in front of the custom ones. -/
theorem parts (early : Bool) {low : Nat} (kinds : List SectionKind) {m : Module}
    (writable : m.Writable) {done : Module}
    (ordinary : ∀ k ∈ kinds, k ≠ .custom) (above : ∀ k ∈ kinds, low < k.order)
    (ordered : kinds.Pairwise fun k k' => k.order < k'.order)
    (lacks : ∀ k ∈ kinds, done.Lacks k) :
    Completes early low done (kinds.flatMap m.part ++ m.part .custom)
      (m.canonical.take (kinds.foldl m.canonical.take done) .custom) := by
  induction kinds generalizing low done with
  | nil => exact customs m.customs done writable.customs
  | cons kind kinds ih =>
      obtain ⟨before, ordered⟩ := List.pairwise_cons.mp ordered
      rw [List.flatMap_cons, List.append_assoc]
      refine part writable (ordinary kind List.mem_cons_self) (above kind List.mem_cons_self)
        (lacks kind List.mem_cons_self) (ih (fun k mem => ordinary k (List.mem_cons_of_mem _ mem))
          before ordered fun k mem => ?_)
      refine (lacks k (List.mem_cons_of_mem _ mem)).take _ ?_
      rintro rfl
      exact Nat.lt_irrefl _ (before kind mem)

end Completes

/-- The bytes of all sections bring back the module. -/
theorem completes_parts (early : Bool) {m : Module} (writable : m.Writable) :
    Completes early 0 {} m.parts m.canonical := by
  have read : Completes early 0 {} _ _ := Completes.parts early Module.sectionOrder.dropLast
    writable (by decide) (by decide) (by decide) fun k _ => Module.lacks_empty k
  rw [Module.take_all] at read
  have order : Module.sectionOrder = Module.sectionOrder.dropLast ++ [.custom] := rfl
  rw [Module.parts, order, List.flatMap_append, List.flatMap_singleton]
  exact read

theorem decodeWith_eq_ok_iff {early : Bool} {bytes : List UInt8} {m : Module} :
    Module.decodeWith early bytes = .ok m ↔
      ∃ r, module_ early (Reader.ofBytes bytes) = .ok m r := by
  unfold Module.decodeWith
  cases module_ early (Reader.ofBytes bytes) <;> simp

/-- The header and sections that complete a consistent module are that module. -/
theorem decodeWith_of_completes {early : Bool} {m : Module} {bytes : List UInt8}
    (completes : Completes early 0 {} bytes m) (consistent : m.Consistent) :
    Module.decodeWith early (Encode.u32le 0x6d736100 ++ (Encode.u32le 1 ++ bytes)) = .ok m := by
  have magic := Reads.locate "header" (Reads.u32le (length_littleEndian 4 0x6d736100))
  have version := Reads.locate "header" (Reads.u32le (length_littleEndian 4 1))
  refine decodeWith_eq_ok_iff.mpr ⟨⟨0 + 4 + 4 + bytes.length, []⟩, ?_⟩
  rw [module_]
  simp only [throw_bind]
  refine bind_eq_ok_iff.mpr ⟨_, _, magic _ _, ?_⟩
  rw [if_neg (by decide)]
  refine bind_eq_ok_iff.mpr ⟨_, _, version _ _, ?_⟩
  rw [if_neg (by decide)]
  refine bind_eq_ok_iff.mpr ⟨_, _, rfl, ?_⟩
  refine bind_eq_ok_iff.mpr ⟨_, _, completes _ _ _ (Nat.le_refl 0) (Nat.lt_succ_self _), ?_⟩
  rw [if_neg (by simp [consistent.bodies])]
  cases counted : m.dataCount with
  | none => rfl
  | some declared =>
      have agrees := consistent.dataCount declared counted
      dsimp only
      rw [if_neg (by simp [agrees])]
      rfl

/-- A module that can be written is read back. -/
theorem decodeWith_encode (early : Bool) {m : Module} (writable : m.Writable)
    (consistent : m.Consistent) : Module.decodeWith early m.encode = .ok m.canonical := by
  rw [Module.encode_eq]
  refine decodeWith_of_completes (completes_parts early writable)
    ⟨by simpa [Module.canonical] using consistent.bodies, fun n counted => ?_⟩
  simpa [Module.canonical] using consistent.dataCount n counted

end Decoder

namespace Module

/-- The writer does not look at the flags of segments. -/
theorem vector_canonical (m : Module) :
    Encode.vector Encode.element m.canonical.elements = Encode.vector Encode.element m.elements ∧
      Encode.vector Encode.dataSegment m.canonical.data =
        Encode.vector Encode.dataSegment m.data := by
  constructor
  all_goals
    simp [canonical, Encode.vector, List.flatMap_map]
    rfl

theorem encode_canonical (m : Module) : m.canonical.encode = m.encode := by
  obtain ⟨elements, data⟩ := m.vector_canonical
  unfold encode Encode.listSection
  rw [elements, data]
  simp [canonical]

/-- A module that was decoded comes back from its encoding with the flags of its
segments picked anew, its encoding is stable, and no longer than what was decoded. -/
theorem decode_encode_of_decode {bytes : List UInt8} {m : Module} (decoded : decode bytes = .ok m) :
    decode m.encode = .ok m.canonical ∧ m.canonical.encode = m.encode ∧
      m.encode.length ≤ bytes.length := by
  obtain ⟨r, ran⟩ := decodeWith_eq_ok_iff.mp decoded
  obtain ⟨read, split, -, writable, consistent, short⟩ := Yields.module_ true _ _ _ ran
  refine ⟨decodeWith_encode true writable consistent, m.encode_canonical, ?_⟩
  rw [show bytes = read ++ r.rest from split, List.length_append]
  omega

/-- A memory and a data segment for it, with sizes and bounds padded to two bytes and a
segment that names the first memory, which it need not do. -/
def paddedBytes : List UInt8 :=
  [0x00, 0x61, 0x73, 0x6d, 1, 0, 0, 0,
    5, 0x84, 0, 1, 0, 0x81, 0,
    11, 8, 1, 2, 0, 0x41, 0, 0x0b, 1, 42]

/-- What these bytes hold. -/
def paddedModule : Module :=
  { memories := [⟨⟨1, none⟩⟩]
    data := [⟨.active, 2, 0, [.plain Opcode.i32Const (some (.i32 0))], [42]⟩] }

theorem decode_encode_paddedBytes : decode paddedBytes = .ok paddedModule ∧
    decode paddedModule.encode = .ok paddedModule.canonical ∧
      paddedModule.canonical.encode = paddedModule.encode ∧
      paddedModule.encode.length ≤ paddedBytes.length := by
  have decoded : decode paddedBytes = .ok paddedModule := rfl
  exact ⟨decoded, decode_encode_of_decode decoded⟩

end Module

end WasmMachine
