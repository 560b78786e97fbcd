/-
# Primitives written and read back

A writer puts down primitives one after another, and a reader that is told of what kind the
next one is takes them up again.  Bytes do not say of what kind they are, so the kinds are
given apart; for plain bytes that includes how many there are.

For each kind there is a judgement on what is written for it, and a list is one induction
from there.  What a reader gives always fits its kind, so the primitives that come back are
exactly those that fit.
-/

import WasmMachine.Proofs.Binary.Overflow
import WasmMachine.Proofs.Binary.Vector

namespace WasmMachine

open Leb128 Decoder

/-- The widths that signed numbers are read with. -/
inductive SignedWidth
  | narrow | block | wide
  deriving DecidableEq, Repr

/-- A block type has one bit more than a number of 32 bits, so that a type index does not
look like a sign. -/
def SignedWidth.bits : SignedWidth → Nat
  | .narrow => 32
  | .block => 33
  | .wide => 64

/-- The reader of signed numbers of a width. -/
def SignedWidth.read : SignedWidth → Decoder Int
  | .narrow => s32
  | .block => s33
  | .wide => s64

theorem SignedWidth.read_eq (w : SignedWidth) : w.read = signed w.bits := by
  cases w <;> rfl

theorem SignedWidth.bits_pos (w : SignedWidth) : 0 < w.bits := by
  cases w <;> decide

theorem SignedWidth.bits_le (w : SignedWidth) : w.bits ≤ 64 := by
  cases w <;> decide

/-- What one step of a writer puts down. A signed number comes with the width it is to be
read with, which does not show in its bytes. -/
inductive Primitive
  | byte (b : UInt8)
  | bytes (bs : List UInt8)
  | u32 (n : UInt32)
  | u64 (n : UInt64)
  | signed (w : SignedWidth) (v : Int)
  | name (s : String)
  | u32le (n : UInt32)
  | u64le (n : UInt64)
  deriving DecidableEq, Repr

/-- What a reader is told about the next field. -/
inductive PrimitiveKind
  | byte
  | bytes (count : Nat)
  | u32
  | u64
  | signed (w : SignedWidth)
  | name
  | u32le
  | u64le
  deriving DecidableEq, Repr

namespace Primitive

/-- The bytes of a field. -/
def write : Primitive → List UInt8
  | .byte b => [b]
  | .bytes bs => bs
  | .u32 n => Encode.u32 n
  | .u64 n => Encode.u64 n
  | .signed _ v => Encode.s64 v
  | .name s => Encode.name s
  | .u32le n => Encode.u32le n
  | .u64le n => Encode.u64le n

def kind : Primitive → PrimitiveKind
  | .byte _ => .byte
  | .bytes bs => .bytes bs.length
  | .u32 _ => .u32
  | .u64 _ => .u64
  | .signed w _ => .signed w
  | .name _ => .name
  | .u32le _ => .u32le
  | .u64le _ => .u64le

/-- The value of a field is one that the reader of its kind can give. Numbers of 64 bits are
read as numbers of 32, and signed numbers have the range of their width. Beyond these
ranges there is one corner: a name is written with its length as a number of 32 bits, so a
name of `2 ^ 32` bytes or more is not read back. Bytes and fixed words always fit. -/
def Fits : Primitive → Prop
  | .u64 n => n.toNat < 2 ^ 32
  | .signed w v => Representable w.bits v
  | .name s => s.toUTF8.toList.length < 2 ^ 32
  | _ => True

end Primitive

/-- Read a field of a known kind. There is no reader of unsigned 64-bit numbers. -/
def PrimitiveKind.read : PrimitiveKind → Decoder Primitive
  | .byte => .byte <$> Decoder.byte
  | .bytes count => .bytes <$> Decoder.bytes count
  | .u32 => .u32 <$> Decoder.u32
  | .u64 => (fun n => .u64 n.toUInt64) <$> Decoder.u32
  | .signed w => .signed w <$> w.read
  | .name => .name <$> Decoder.name
  | .u32le => .u32le <$> Decoder.u32le
  | .u64le => .u64le <$> Decoder.u64le

namespace Decoder

variable {α β : Type}

theorem Reads.map {step : Decoder α} {bs : List UInt8} {a : α} (f : α → β)
    (reads : Reads step bs a) : Reads (f <$> step) bs (f a) := by
  intro position rest
  simp only [Functor.map, EStateM.map, reads position rest]

theorem Yields.map {step : Decoder α} {P : List UInt8 → α → Prop} (f : α → β)
    (yields : Yields step P) : Yields (f <$> step) fun bs b => ∃ a, b = f a ∧ P bs a := by
  intro r b r' ok
  simp only [Functor.map, EStateM.map] at ok
  split at ok
  · next a middle ran =>
      cases ok
      obtain ⟨bs, split, moved, holds⟩ := yields r a r' ran
      exact ⟨bs, split, moved, a, rfl, holds⟩
  · cases ok

end Decoder

/-! ## One field -/

/-- A field that fits is read back from what is written for it. -/
theorem Primitive.reads (f : Primitive) (fits : f.Fits) : Reads f.kind.read f.write f := by
  cases f with
  | byte b => exact Reads.map Primitive.byte (Reads.byte b)
  | bytes bs => exact Reads.map Primitive.bytes (Reads.bytes bs)
  | u32 n => exact Reads.map Primitive.u32 (Reads.u32 (Encode.unsigned_u32 n))
  | u64 n =>
      have reads := Reads.map (fun n : UInt32 => Primitive.u64 n.toUInt64)
        (Reads.u32 (Encode.unsigned_u32 n.toUInt32))
      rw [← Encode.u64_toUInt64, Encode.toUInt64_toUInt32_of_lt fits] at reads
      exact reads
  | signed w v =>
      have spelled := Encode.signed_s64 w.bits_pos w.bits_le fits.1 fits.2
      exact Reads.map (Primitive.signed w) (w.read_eq ▸ Reads.signed w.bits_le spelled)
  | name s => exact Reads.map Primitive.name (Reads.name (named_name fits))
  | u32le n =>
      have four : (Encode.u32le n).length = 4 := length_littleEndian 4 n.toNat
      have reads := Reads.u32le four
      rw [littleEndian_u32le] at reads
      exact Reads.map Primitive.u32le reads
  | u64le n =>
      have eight : (Encode.u64le n).length = 8 := length_littleEndian 8 n.toNat
      have reads := Reads.u64le eight
      rw [littleEndian_u64le] at reads
      exact Reads.map Primitive.u64le reads

/-- Whatever is read as a field fits. -/
theorem PrimitiveKind.yields_fits (k : PrimitiveKind) : Yields k.read fun _ f => f.Fits := by
  cases k with
  | byte =>
      refine (Yields.map Primitive.byte Yields.byte).mono ?_
      rintro bs f ⟨b, rfl, -⟩
      trivial
  | bytes count =>
      refine (Yields.map Primitive.bytes (Yields.bytes count)).mono ?_
      rintro bs f ⟨read, rfl, -⟩
      trivial
  | u32 =>
      refine (Yields.map Primitive.u32 Yields.u32).mono ?_
      rintro bs f ⟨n, rfl, -⟩
      trivial
  | u64 =>
      refine (Yields.map (fun n : UInt32 => Primitive.u64 n.toUInt64) Yields.u32).mono ?_
      rintro bs f ⟨n, rfl, -⟩
      exact n.toNat_lt
  | signed w =>
      have yields := w.read_eq ▸ Yields.signed w.bits_le
      refine (Yields.map (Primitive.signed w) yields).mono ?_
      rintro bs f ⟨v, rfl, spelled⟩
      exact ⟨spelled.lower, spelled.upper⟩
  | name =>
      refine (Yields.map Primitive.name Yields.name).mono ?_
      rintro bs f ⟨s, rfl, named⟩
      exact named.few
  | u32le =>
      refine (Yields.map Primitive.u32le Yields.u32le).mono ?_
      rintro bs f ⟨n, rfl, -⟩
      trivial
  | u64le =>
      refine (Yields.map Primitive.u64le Yields.u64le).mono ?_
      rintro bs f ⟨n, rfl, -⟩
      trivial

/-! ## Many primitives -/

/-- Read primitives of known kinds, one after another. -/
def readPrimitives (kinds : List PrimitiveKind) : Decoder (List Primitive) :=
  kinds.mapM PrimitiveKind.read

theorem reads_primitives (fields : List Primitive) (fit : ∀ f ∈ fields, f.Fits) :
    Reads (readPrimitives (fields.map Primitive.kind)) (fields.flatMap Primitive.write)
      fields := by
  induction fields with
  | nil => exact Reads.pure []
  | cons f fields ih =>
      obtain ⟨fits, fit⟩ := List.forall_mem_cons.mp fit
      simp only [readPrimitives, List.map_cons, List.mapM_cons, List.flatMap_cons]
      exact Reads.bind (f.reads fits) (Reads.bind_pure (ih fit) rfl)

theorem yields_primitives (kinds : List PrimitiveKind) :
    Yields (readPrimitives kinds) fun _ fields => ∀ f ∈ fields, f.Fits := by
  induction kinds with
  | nil => exact Yields.pure (List.forall_mem_nil _)
  | cons k kinds ih =>
      simp only [readPrimitives, List.mapM_cons]
      refine Yields.bind k.yields_fits fun bs f fits => ?_
      refine Yields.bind ih fun more fields fit => ?_
      exact Yields.pure (List.forall_mem_cons.mpr ⟨fits, fit⟩)

/-- Primitives come back, with no byte left behind them, exactly when all of them fit. -/
theorem readPrimitives_write_iff (fields : List Primitive) :
    readPrimitives (fields.map Primitive.kind) (.ofBytes (fields.flatMap Primitive.write)) =
        .ok fields ⟨(fields.flatMap Primitive.write).length, []⟩ ↔
      ∀ f ∈ fields, f.Fits := by
  constructor
  · intro ok
    obtain ⟨bs, -, -, fit⟩ := yields_primitives _ _ _ _ ok
    exact fit
  · intro fit
    have filled := (reads_primitives fields fit).fills 0
    rwa [Nat.zero_add] at filled

/-! ## Numbers of variable length -/

/-- A step takes `bs` off the window `r` and leaves `r'`. -/
def Reader.Takes (r : Reader) (bs : List UInt8) (r' : Reader) : Prop :=
  r.rest = bs ++ r'.rest ∧ r'.position = r.position + bs.length

/-- A step that reads what it is known to take is told by what it takes. -/
theorem Decoder.eq_ok_iff_takes {α : Type} {step : Decoder α} {P : List UInt8 → α → Prop}
    (reads : ∀ bs a, P bs a → Reads step bs a) (yields : Yields step P) (r r' : Reader) (a : α) :
    step r = .ok a r' ↔ ∃ bs, r.Takes bs r' ∧ P bs a := by
  constructor
  · intro ok
    obtain ⟨bs, split, moved, holds⟩ := yields r a r' ok
    exact ⟨bs, ⟨split, moved⟩, holds⟩
  · obtain ⟨position, bytes⟩ := r
    obtain ⟨position', rest⟩ := r'
    rintro ⟨bs, ⟨split, moved⟩, holds⟩
    obtain rfl : bytes = bs ++ rest := split
    obtain rfl : position' = position + bs.length := moved
    exact reads bs a holds position rest

/-- For a width whose groups have room in 64 bits nothing is cut off. -/
theorem Leb128.signed_iff {width : Nat} (few : width ≤ 57) (bs : List UInt8) (v : Int) :
    Signed width bs v ↔ Groups bs ∧ bs.length ≤ (width + 6) / 7 ∧ signedValue bs = v ∧
      Representable width v := by
  constructor
  · rintro ⟨groups, short, value, lower, upper⟩
    rw [bmod_signedValue groups (by omega)] at value
    exact ⟨groups, short, value, lower, upper⟩
  · rintro ⟨groups, short, value, lower, upper⟩
    refine ⟨groups, short, ?_, lower, upper⟩
    rw [bmod_signedValue groups (by omega), value]

/-- What the readers of 32- and 33-bit numbers accept at a window, and in how many bytes the
writer puts down what they give. -/
structure ReadsNumbers (r : Reader) : Prop where
  /-- An unsigned number is any run of at most five groups that stands for one of 32 bits. -/
  unsigned : ∀ (n : UInt32) (r' : Reader), u32 r = .ok n r' ↔
    ∃ bs, r.Takes bs r' ∧ Groups bs ∧ bs.length ≤ 5 ∧ unsignedValue bs = n.toNat
  /-- A signed number is any run of at most five groups that stands for one of its width. -/
  signed : ∀ w : SignedWidth, w ≠ .wide → ∀ (v : Int) (r' : Reader), w.read r = .ok v r' ↔
    ∃ bs, r.Takes bs r' ∧ Groups bs ∧ bs.length ≤ 5 ∧ signedValue bs = v ∧
      Representable w.bits v
  /-- No bytes that are read as a number are fewer than those written for it. -/
  shortest : ∀ (n : UInt32) (bs : List UInt8) (r' : Reader), r.Takes bs r' →
    u32 r = .ok n r' → (Encode.u32 n).length ≤ bs.length
  shortestSigned : ∀ (w : SignedWidth) (v : Int) (bs : List UInt8) (r' : Reader),
    r.Takes bs r' → w.read r = .ok v r' → (Encode.s64 v).length ≤ bs.length

/-- What is taken off a window is told by the window behind it. -/
theorem Reader.Takes.unique {r r' : Reader} {bs cs : List UInt8} (first : r.Takes bs r')
    (second : r.Takes cs r') : bs = cs :=
  List.append_cancel_right (first.1.symm.trans second.1)

theorem readsNumbers (r : Reader) : ReadsNumbers r where
  unsigned n r' := by
    rw [eq_ok_iff_takes (fun _ _ => Reads.u32) Yields.u32]
    refine exists_congr fun bs => and_congr_right fun _ => ?_
    exact ⟨fun ⟨groups, short, value⟩ => ⟨groups, short, value⟩,
      fun ⟨groups, short, value⟩ => ⟨groups, short, value⟩⟩
  signed w narrow v r' := by
    have few : w.bits ≤ 57 ∧ (w.bits + 6) / 7 = 5 := by
      cases w <;> first | exact absurd rfl narrow | decide
    rw [w.read_eq, eq_ok_iff_takes (fun _ _ => Reads.signed w.bits_le) (Yields.signed w.bits_le)]
    refine exists_congr fun bs => and_congr_right fun _ => ?_
    rw [signed_iff few.1, few.2]
  shortest n bs r' takes ok := by
    obtain ⟨cs, split, moved, spelled⟩ := Yields.u32 r n r' ok
    rw [takes.unique ⟨split, moved⟩]
    exact Encode.length_u32_le spelled
  shortestSigned w v bs r' takes ok := by
    rw [w.read_eq] at ok
    obtain ⟨cs, split, moved, spelled⟩ := Yields.signed w.bits_le r v r' ok
    rw [takes.unique ⟨split, moved⟩]
    exact Encode.length_s64_le w.bits_le spelled

/-- Readers accept numbers in every permitted spelling, writers choose the shortest one, and
what is written comes back if its kind has room for it. -/
theorem primitives_read_back (r : Reader) (fields : List Primitive) :
    ReadsNumbers r ∧
      (readPrimitives (fields.map Primitive.kind) (.ofBytes (fields.flatMap Primitive.write)) =
          .ok fields ⟨(fields.flatMap Primitive.write).length, []⟩ ↔
        ∀ f ∈ fields, f.Fits) :=
  ⟨readsNumbers r, readPrimitives_write_iff fields⟩

end WasmMachine
