/-
# What a view counts in 32 bits

A view gives the length of a memory in 32 bits, and counts the bytes that it is to write in
32 bits too.  A memory of the greatest size there is has one byte more than that.  Up to this
one size the length is what can be read; at this size it is 0 while everything can be read.
And of bytes that 32 bits cannot count only the first ones are written, as many as are left of
their number, without a fault.
-/

import WasmMachine.Proofs.Evolution.Growing
import WasmMachine.Proofs.Memory.Views

namespace WasmMachine

theorem MemInst.Bounded.size_eq {m : MemInst} (bounded : m.Bounded) :
    m.data.size = pageSize * m.pages := by
  unfold MemInst.pages
  rw [m.size_bytes]
  exact (Nat.mul_div_cancel' bounded.whole).symm

/-- To write nothing changes nothing. -/
theorem MemInst.write_nil (m : MemInst) (start : Nat) : m.write start [] = m := rfl

namespace MemoryView

/-- The length in bytes is that of the pages, and what can be read are the bytes within it. -/
structure Measures (view : MemoryView) (s : Store) : Prop where
  size : (view.size s).toNat = pageSize * (view.pages s).toNat
  read : ∀ offset length : UInt32, (∃ bytes, view.read s offset length = .ok bytes) ↔
    offset.toNat + length.toNat ≤ (view.size s).toNat

/-- A write of bytes has put all of them into a memory, or was refused since they do not lie
in it; then there is no other store. -/
def Puts (view : MemoryView) (s : Store) (m : MemInst) (offset : Nat) (bytes : List UInt8)
    (outcome : Except Trap Store) : Prop :=
  match outcome with
  | .ok s' => offset + bytes.length ≤ m.data.size ∧ ∃ data, s.WithMemory s' view.addr m data ∧
      Cells.Copied bytes 0 m.data data offset bytes.length
  | .error t => m.data.size < offset + bytes.length ∧
      t = .viewBounds offset bytes.length m.data.size

/-- The bytes that a write takes of those it is given: as many of the first ones as are left of
their number in 32 bits. -/
def taken (bytes : List UInt8) : List UInt8 := bytes.take (bytes.length % 2 ^ 32)

/-- What a view tells of the size of a memory and how it takes offsets and lengths. -/
structure Counts (view : MemoryView) (s : Store) (m : MemInst) : Prop where
  pages : (view.pages s).toNat = m.pages
  size : (view.size s).toNat = if m.pages = maxPages then 0 else pageSize * m.pages
  read : ∀ offset length : UInt32, (∃ bytes, view.read s offset length = .ok bytes) ↔
    offset.toNat + length.toNat ≤ pageSize * m.pages
  measures : view.Measures s ↔ m.pages ≠ maxPages
  write : ∀ (offset : UInt32) (bytes : List UInt8),
    view.Puts s m offset.toNat (taken bytes) (view.write s offset bytes)
  writeShort : ∀ (offset : UInt32) (bytes : List UInt8), bytes.length < 2 ^ 32 →
    view.Puts s m offset.toNat bytes (view.write s offset bytes)

variable {view : MemoryView} {s : Store} {m : MemInst}

theorem read_ok_iff (found : s.memories[view.addr]? = some m) (offset length : UInt32) :
    (∃ bytes, view.read s offset length = .ok bytes) ↔
      offset.toNat + length.toNat ≤ m.data.size := by
  rw [read_eq found]
  split
  · next inside => exact ⟨fun _ => inside, fun _ => ⟨_, rfl⟩⟩
  · next outside =>
      refine ⟨?_, fun inside => absurd inside outside⟩
      rintro ⟨bytes, is⟩
      cases is

theorem length_taken (bytes : List UInt8) : (taken bytes).length = bytes.length % 2 ^ 32 := by
  unfold taken
  rw [List.length_take]
  exact Nat.min_eq_left (Nat.mod_le _ _)

theorem taken_of_short {bytes : List UInt8} (short : bytes.length < 2 ^ 32) :
    taken bytes = bytes := by
  unfold taken
  rw [Nat.mod_eq_of_lt short, List.take_length]

theorem write_taken (found : s.memories[view.addr]? = some m) (offset : UInt32)
    (bytes : List UInt8) :
    view.write s offset bytes =
      if offset.toNat + (taken bytes).length ≤ m.data.size then
        .ok (s.writeMemory view.addr offset.toNat (taken bytes))
      else .error (.viewBounds offset.toNat (taken bytes).length m.data.size) := by
  have counted : (UInt32.ofNat bytes.length).toNat = bytes.length % 2 ^ 32 := UInt32.toNat_ofNat
  rw [write, read_eq found, counted, length_taken]
  split <;> rfl

theorem puts_write (found : s.memories[view.addr]? = some m) (offset : UInt32)
    (bytes : List UInt8) :
    view.Puts s m offset.toNat (taken bytes) (view.write s offset bytes) := by
  rw [write_taken found]
  split
  · next inside =>
      exact ⟨inside, _, Store.withMemory_writeMemory found _ _,
        Cells.copied_overwrite_whole inside⟩
  · next outside => exact ⟨Nat.not_le.mp outside, rfl⟩

theorem size_toNat (found : s.memories[view.addr]? = some m) :
    (view.size s).toNat = m.data.size % 2 ^ 32 := by
  rw [size, bytes_eq found, m.size_bytes]
  exact UInt32.toNat_ofNat

/-- Within the limits of the format. -/
theorem counts_of_bounded (found : s.memories[view.addr]? = some m) (bounded : m.Bounded) :
    view.Counts s m := by
  have pages : (view.pages s).toNat = m.pages := pages_eq found bounded.pages
  have size : (view.size s).toNat = if m.pages = maxPages then 0 else pageSize * m.pages := by
    rw [size_toNat found, bounded.size_eq]
    split
    · next full => rw [full]; rfl
    · next less =>
        have few := bounded.pages
        unfold maxPages pageSize at *
        exact Nat.mod_eq_of_lt (by omega)
  have read : ∀ offset length : UInt32, (∃ bytes, view.read s offset length = .ok bytes) ↔
      offset.toNat + length.toNat ≤ pageSize * m.pages := by
    intro offset length
    rw [← bounded.size_eq]
    exact read_ok_iff found offset length
  refine ⟨pages, size, read, ⟨?_, ?_⟩, puts_write found, fun offset bytes short => ?_⟩
  · rintro ⟨whole, -⟩ full
    rw [size, pages, if_pos full, full] at whole
    exact absurd whole (by decide)
  · intro less
    rw [if_neg less] at size
    refine ⟨by rw [size, pages], fun offset length => ?_⟩
    rw [size]
    exact read offset length
  · have put := puts_write found offset bytes
    rwa [taken_of_short short] at put

end MemoryView

namespace Linker

/-- The operations of an embedder whose modules are validated and whose own definitions have
bounds in order. -/
abbrev Validated : Linker → Linker → Prop :=
  Operation (fun m => m.validate = .ok ()) HostDef.Sound

theorem bounded_of_validated {start l : Linker} (before : Relation.ReflTransGen Validated start l)
    (bounded : start.machine.store.Bounded) : l.machine.store.Bounded := by
  induction before with
  | refl => exact bounded
  | tail _ operation ih => exact operation.bounded_of_validated (fun _ => id) ih

/-- What a view tells and does, of every memory that there ever is, also while code runs. The
number of pages is exact, and so is the check of a read and of a write. The length in bytes is
that of the pages, and what can be read is what lies within it, unless the memory has all the
pages that the format allows; then the length is 0. A write puts all of its bytes or none, as
long as 32 bits can count them; of more bytes it takes the first ones only. -/
theorem counts_of_operations {start l : Linker} (empty : start.machine.store = {})
    (before : Relation.ReflTransGen Validated start l) {s : Store}
    (running : l.machine.store.Evolves s) {view : MemoryView} {m : MemInst}
    (found : s.memories[view.addr]? = some m) : view.Counts s m := by
  have bounded := bounded_of_validated before (empty ▸ Store.bounded_empty)
  exact MemoryView.counts_of_bounded found ((bounded.evolve running).memories _ m found)

/-- A memory with all the pages that the format allows. -/
def fullMemory : MemInst := .initial ⟨⟨65536, none⟩⟩

/-- A linker in which the embedder has defined that memory. -/
def fullLinker : Linker :=
  after (Link.hostModule "env" [⟨"memory", .memory ⟨⟨65536, none⟩⟩⟩]) (Embedding.new {}).linker

theorem validated_fullLinker : Validated (Embedding.new {}).linker fullLinker := by
  refine .hostModule fun d mem => ?_
  cases List.mem_singleton.mp mem
  exact ⟨by decide, fun most stated => (by cases stated)⟩

theorem found_fullLinker : fullLinker.machine.store.memories[0]? = some fullMemory := rfl

theorem bounded_fullMemory : fullMemory.Bounded := by
  refine MemoryType.Sound.bounded ⟨by decide, fun most stated => ?_⟩
  cases stated

theorem counts_fullLinker : (⟨0⟩ : MemoryView).Counts fullLinker.machine.store fullMemory :=
  counts_of_operations rfl (.single validated_fullLinker) (.refl _) found_fullLinker

/-- The view of this memory says that it has no bytes, but the first byte can be read; and a
write of 2^32 ones is reported as done, but leaves the memory full of zeros. -/
theorem size_fullLinker :
    Relation.ReflTransGen Validated (Embedding.new {}).linker fullLinker ∧
      (⟨0⟩ : MemoryView).pages fullLinker.machine.store = 65536 ∧
      (⟨0⟩ : MemoryView).size fullLinker.machine.store = 0 ∧
      (∃ bytes, (⟨0⟩ : MemoryView).read fullLinker.machine.store 0 1 = .ok bytes) ∧
      ∃ s', (⟨0⟩ : MemoryView).write fullLinker.machine.store 0 (List.replicate (2 ^ 32) 1) =
          .ok s' ∧ s'.memories[0]? = some fullMemory := by
  have counts : (⟨0⟩ : MemoryView).Counts fullLinker.machine.store fullMemory :=
    MemoryView.counts_of_bounded found_fullLinker bounded_fullMemory
  have full : fullMemory.pages = maxPages := MemInst.pages_initial _
  refine ⟨.single validated_fullLinker, ?_, ?_, ?_, ?_⟩
  · exact UInt32.toNat_inj.mp (counts.pages.trans full)
  · exact UInt32.toNat_inj.mp (counts.size.trans (if_pos full))
  · rw [counts.read, full]
    decide
  · have none : MemoryView.taken (List.replicate (2 ^ 32) 1) = [] := by
      refine List.eq_nil_of_length_eq_zero ?_
      rw [MemoryView.length_taken, List.length_replicate, Nat.mod_self]
    refine ⟨_, (MemoryView.write_taken found_fullLinker 0 _).trans (if_pos ?_), ?_⟩
    · rw [none]
      exact Nat.zero_le _
    · rw [none]
      unfold Store.writeMemory
      rw [Array.getElem?_modify, if_pos rfl, found_fullLinker, Option.map_some]
      exact congrArg some (fullMemory.write_nil _)

end Linker

end WasmMachine
