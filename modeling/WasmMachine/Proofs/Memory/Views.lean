/-
# A view is the memory

An embedder reads, writes and grows a memory through a view, with offsets and lengths of 32
bits; code does so with loads, stores and the instruction that grows.  The two have bounds
checks and ways to put bytes together of their own, but they agree: an access through the view
goes through exactly when the instruction with the offset as its base and no constant part
does, and then reads the same number or leaves the same store.
-/

import WasmMachine.Embedding.MemoryView
import WasmMachine.Proofs.Evolution.Growing
import WasmMachine.Proofs.Memory.Access

namespace WasmMachine

namespace Encode

/-- Only the low bytes of a number are written. -/
theorem littleEndian_mod (width n : Nat) :
    littleEndian width (n % 256 ^ width) = littleEndian width n := by
  have bytes := Decoder.encode_littleEndian (littleEndian width n)
  rwa [Decoder.length_littleEndian, Decoder.littleEndian_encode] at bytes

theorem littleEndian_congr {width n k : Nat} (same : n % 2 ^ (8 * width) = k % 2 ^ (8 * width)) :
    littleEndian width n = littleEndian width k := by
  rw [Nat.pow_mul] at same
  rw [← littleEndian_mod width n, ← littleEndian_mod width k]
  exact congrArg _ same

end Encode

namespace MemoryView

variable {view : MemoryView} {s : Store} {m : MemInst}

section Accesses

variable (found : s.memories[view.addr]? = some m) (offset : UInt32)

include found

theorem bytes_eq : view.bytes s = m.bytes := by
  rw [bytes, found]
  rfl

/-- The bytes that are read lie in the memory. -/
theorem read_eq (length : UInt32) :
    view.read s offset length =
      if offset.toNat + length.toNat ≤ m.data.size then
        .ok ((m.data.toList.drop offset.toNat).take length.toNat)
      else .error (.viewBounds offset.toNat length.toNat m.data.size) := by
  rw [read, bytes_eq found, Packed.read?_eq]
  by_cases inside : offset.toNat + length.toNat ≤ m.data.size
  · rw [Cells.read?_of_le inside, if_pos inside]
  · rw [m.size_bytes, Cells.read?_of_lt (Nat.not_le.mp inside), if_neg inside]

theorem write_eq {bytes : List UInt8} (short : bytes.length < 2 ^ 32) :
    view.write s offset bytes =
      if offset.toNat + bytes.length ≤ m.data.size then
        .ok (s.writeMemory view.addr offset.toNat bytes)
      else .error (.viewBounds offset.toNat bytes.length m.data.size) := by
  have length : (UInt32.ofNat bytes.length).toNat = bytes.length := UInt32.toNat_ofNat_of_lt' short
  rw [write, read_eq found, length, List.take_length]
  split <;> rfl

theorem readNumber_eq {width : Nat} (few : width ≤ 16) :
    view.readNumber s width offset =
      if offset.toNat + width ≤ m.data.size then
        .ok (Decoder.littleEndian ((m.data.toList.drop offset.toNat).take width))
      else .error (.viewBounds offset.toNat width m.data.size) := by
  have length : (UInt32.ofNat width).toNat = width :=
    UInt32.toNat_ofNat_of_lt' (Nat.lt_of_le_of_lt few (by decide))
  rw [readNumber, read_eq found, length]
  split <;> rfl

theorem writeNumber_eq {width : Nat} (few : width ≤ 16) (n : Nat) :
    view.writeNumber s width offset n =
      if offset.toNat + width ≤ m.data.size then
        .ok (s.writeMemory view.addr offset.toNat (Encode.littleEndian width n))
      else .error (.viewBounds offset.toNat width m.data.size) := by
  have length := Decoder.length_littleEndian width n
  rw [writeNumber, write_eq found offset
    (by rw [length]; exact Nat.lt_of_le_of_lt few (by decide)), length]

end Accesses

theorem grow_eq (found : s.memories[view.addr]? = some m) (count : UInt32) :
    view.grow s count =
      if m.pages + count.toNat ≤ m.limit then
        some (m.pages, s.growMemory view.addr count.toNat)
      else none := by
  rw [grow, found]
  simp only [MemInst.mayGrow, decide_eq_true_eq]

/-- The length in pages is that of the memory, and so is the length in bytes, up to the last
page that 32 bits can count the bytes of. -/
theorem pages_eq (found : s.memories[view.addr]? = some m) (few : m.pages ≤ maxPages) :
    (view.pages s).toNat = m.pages := by
  rw [pages, found]
  exact UInt32.toNat_ofNat_of_lt' (Nat.lt_of_le_of_lt few (by decide))

theorem size_eq (found : s.memories[view.addr]? = some m) (few : m.pages ≤ 65535) :
    (view.size s).toNat = m.data.size := by
  have whole := Nat.lt_mul_div_succ m.data.size pageSize_pos
  have below : pageSize * (m.data.size / pageSize + 1) ≤ pageSize * 65536 :=
    Nat.mul_le_mul_left _ (Nat.succ_le_succ few)
  rw [size, bytes_eq found, m.size_bytes]
  exact UInt32.toNat_ofNat_of_lt' (Nat.lt_of_lt_of_le whole below)

end MemoryView

/-! ## Through an embedding -/

namespace Embedding

/-- Another store. -/
def withStore (e : Embedding) (s : Store) : Embedding :=
  { e with linker := { e.linker with machine := { e.linker.machine with store := s } } }

end Embedding

namespace Embed

theorem writeView_eq (change : Store → Except Trap Store) (e : Embedding) :
    writeView change e =
      match change e.store with
      | .ok s => .ok () (e.withStore s)
      | .error t => .error (.fault t.toFault) e := by
  obtain ⟨⟨machine, registry⟩, hosts, options⟩ := e
  rw [writeView]
  simp only [bind, EStateM.bind, get_eq, Embedding.store]
  cases change machine.store <;> rfl

theorem growView_eq (view : MemoryView) (count : UInt32) (e : Embedding) :
    growView view count e =
      match view.grow e.store count with
      | some (old, s) => .ok (some old) (e.withStore s)
      | none => .ok none e := by
  obtain ⟨⟨machine, registry⟩, hosts, options⟩ := e
  rw [growView]
  simp only [bind, EStateM.bind, get_eq, Embedding.store]
  cases view.grow machine.store count <;> rfl

end Embed

/-! ## From code -/

namespace Step

variable {i : Instruction} {t : Transfer} {offset : UInt64} {σ : Scope} {addr : Addr} {m : MemInst}
  {base : UInt32} {rest : List Value}

/-- What a store leaves. -/
theorem store_eq {v : Value} (moves : i.Stores t offset) (options : Options) (takes : t.Takes v)
    (reaches : σ.Reaches addr m) (top : σ.operands = v :: .i32 base :: rest) :
    plain options i σ =
      if Beyond (effective base offset) t.width m.data.size then
        .error .memoryBounds { σ with operands := rest }
      else .ok () { σ with
        operands := rest
        store := σ.store.writeMemory addr (effective base offset)
          (Encode.littleEndian t.width v.bits.toNat) } := by
  have length := Decoder.length_littleEndian t.width v.bits.toNat
  have narrow : t.width < 2 ^ 64 :=
    Nat.lt_of_le_of_lt (Instruction.width_le moves.known) (by decide)
  have reaches' : ({ σ with operands := .i32 base :: rest } : Scope).Reaches addr m := reaches
  rw [moves.plain_eq options takes top, storeBytes_eq reaches' rfl (by rwa [length]), length]

theorem plain_memoryGrow (known : i.opcode = Opcode.memoryGrow) (options : Options) :
    plain options i = memoryGrow := by
  have numeric : Numeric.Operation.ofOpcode i.opcode = none := by rw [known]; rfl
  have scalar : MemoryAccess.ofOpcode i.opcode = none := by rw [known]; rfl
  unfold plain
  simp only [numeric, scalar]
  rw [known]
  rfl

theorem memoryGrow_eq {count : UInt32} (reaches : σ.Reaches addr m)
    (top : σ.operands = .i32 count :: rest) :
    memoryGrow σ =
      if m.pages + count.toNat ≤ m.limit then
        .ok () { σ with
          operands := .i32 (UInt32.ofNat m.pages) :: rest
          store := σ.store.growMemory addr count.toNat }
      else .ok () { σ with operands := .i32 (-1) :: rest } := by
  obtain ⟨operands, frame, store⟩ := σ
  obtain rfl : operands = .i32 count :: rest := top
  unfold memoryGrow
  simp only [bind, EStateM.bind, memoryAddress_eq reaches, fetch_eq (.noMemory 0) reaches.found,
    popI32]
  have grows : m.mayGrow count.toNat = true ↔ m.pages + count.toNat ≤ m.limit := decide_eq_true_iff
  by_cases room : m.pages + count.toNat ≤ m.limit
  · rw [if_pos room, if_pos (grows.mpr room)]
    rfl
  · rw [if_neg room, if_neg (mt grows.mp room)]
    rfl

/-- With the offset of a view as its base and no constant part, an access checks as the view
does. -/
theorem beyond_iff_of_plain (offset : UInt32) (size : Nat) {width : Nat} (few : width ≤ 16) :
    effective offset 0 = offset.toNat ∧
      (Beyond (effective offset 0) width size ↔ ¬ offset.toNat + width ≤ size) := by
  have start : effective offset 0 = offset.toNat := effective_of_narrow (by decide)
  have check : Beyond (effective offset 0) width size ↔ size < effective offset 0 + width :=
    beyond_iff_of_narrow (by decide) few
  exact ⟨start, by rw [check, start, Nat.not_le]⟩

end Step

/-- Eight bytes are moved only to and from operands that have as many. -/
theorem MemoryAccess.width_le_type {op : UInt8} {a : MemoryAccess} (known : ofOpcode op = some a) :
    a.width ≤ 4 ∨ a.width ≤ 8 ∧ (a.type = .i64 ∨ a.type = .f64) := by
  unfold ofOpcode at known
  split at known
  case h_24 => cases known
  all_goals
    cases known
    decide

theorem MemoryAccess.decode_ne_ref (a : MemoryAccess) (bytes : List UInt8) (r : Ref) :
    a.decode bytes ≠ .ref r := by
  simp only [decode]
  split
  · exact Value.noConfusion
  · split
    · exact Value.noConfusion
    · split <;> exact Value.noConfusion

namespace Instruction

variable {i : Instruction} {t : Transfer} {offset : UInt64} {v : Value}

/-- An operand has all the bits that are moved. -/
theorem bits_le (known : i.transfer? = some (t, offset)) (takes : t.Takes v) :
    8 * t.width ≤ v.width := by
  obtain ⟨a, scalar, rfl, -⟩ | ⟨op, vector, -⟩ := plain_transfer known {}
  · have type : v.type = a.type := takes.type
    have few := MemoryAccess.width_le_type scalar
    have number := MemoryAccess.type_of_ofOpcode scalar
    show 8 * a.width ≤ v.width
    rw [← type] at few number
    cases v with
    | i32 bits =>
        have narrow : ¬ (ValType.i32 = .i64 ∨ ValType.i32 = .f64) := by decide
        exact Nat.mul_le_mul_left 8 (few.resolve_right fun wide => narrow wide.2)
    | f32 bits =>
        have narrow : ¬ (ValType.f32 = .i64 ∨ ValType.f32 = .f64) := by decide
        exact Nat.mul_le_mul_left 8 (few.resolve_right fun wide => narrow wide.2)
    | i64 bits =>
        exact Nat.mul_le_mul_left 8 (few.elim (fun few => Nat.le_trans few (by decide)) (·.1))
    | f64 bits =>
        exact Nat.mul_le_mul_left 8 (few.elim (fun few => Nat.le_trans few (by decide)) (·.1))
    | v128 bits =>
        have scalar : ¬ (ValType.v128 = .i32 ∨ ValType.v128 = .i64 ∨ ValType.v128 = .f32 ∨
          ValType.v128 = .f64) := by decide
        exact absurd number scalar
    | ref r => exact absurd rfl (takes.number r)
  · have few := width_le known
    obtain ⟨_, -, rfl⟩ := Option.map_eq_some_iff.mp vector
    obtain ⟨x, rfl⟩ := takes.exists_vector rfl
    exact Nat.mul_le_mul_left 8 few

/-- A load leaves a number or a vector. -/
theorem Loads.ne_ref {options : Options} {σ : Scope} {rest : List Value}
    (moves : i.Loads t offset)
    (done : Step.plain options i σ = .ok () { σ with operands := v :: rest }) (r : Ref) :
    v ≠ .ref r := by
  have pushed {decode : List UInt8 → Value} (number : ∀ bytes, decode bytes ≠ .ref r)
      (runs : Step.plain options i =
        (do let bytes ← Step.loadBytes offset t.width; Step.push (decode bytes))) : v ≠ .ref r := by
    rw [runs] at done
    simp only [bind, EStateM.bind] at done
    split at done
    · next bytes s' _ =>
        have top := congrArg Scope.operands (EStateM.Result.ok.inj done).2
        rw [← (List.cons.inj top).1]
        exact number bytes
    · cases done
  obtain ⟨a, scalar, rfl, runs⟩ | ⟨op, -, runs⟩ := plain_transfer moves.known options
  · exact pushed (fun bytes => a.decode_ne_ref bytes r)
      (runs.trans (memoryAccess_load moves.loads offset))
  · exact pushed (fun bytes => Value.noConfusion)
      (runs.trans (if_neg (ne_true_of_eq_false moves.loads)))

end Instruction

/-! ## Agreement -/

/-- The widths of the numbers that a view reads and writes. -/
def MemoryView.widths : List Nat := [1, 2, 4, 8]

/-- In a store where a view is of some memory, it and code that works on the memory do the
same. -/
structure MemoryView.Agrees (view : MemoryView) (s : Store) (m : MemInst) : Prop where
  pages : (view.pages s).toNat = m.pages
  size : m.pages ≤ 65535 → (view.size s).toNat = m.data.size
  /-- A view reads the number that a load widens with zeros, or both fail. -/
  reads : ∀ (options : Options) (i : Instruction) (t : Transfer) (σ : Scope) (offset : UInt32)
      (rest : List Value),
    i.Loads t 0 → t.form = .zeroExtended → t.width ∈ widths → σ.store = s →
    σ.Reaches view.addr m → σ.operands = .i32 offset :: rest →
    (∃ n v, view.readNumber s t.width offset = .ok n ∧ v.type = t.type ∧ v.bits.toNat = n ∧
      Step.plain options i σ = .ok () { σ with operands := v :: rest }) ∨
    ∃ trap, view.readNumber s t.width offset = .error trap ∧
      Step.plain options i σ = .error .memoryBounds { σ with operands := rest }
  /-- A view leaves the store that a store of the number leaves, or both fail. -/
  writes : ∀ (options : Options) (i : Instruction) (t : Transfer) (σ : Scope) (offset : UInt32)
      (v : Value) (n : Nat) (rest : List Value),
    i.Stores t 0 → t.width ∈ widths → t.Takes v → σ.store = s → σ.Reaches view.addr m →
    σ.operands = v :: .i32 offset :: rest →
    v.bits.toNat % 2 ^ (8 * t.width) = n % 2 ^ (8 * t.width) →
    (∃ s', view.writeNumber s t.width offset n = .ok s' ∧
      Step.plain options i σ = .ok () { σ with operands := rest, store := s' }) ∨
    ∃ trap, view.writeNumber s t.width offset n = .error trap ∧
      Step.plain options i σ = .error .memoryBounds { σ with operands := rest }
  /-- A view grows the memory as code does, or both are refused. -/
  grows : ∀ (options : Options) (i : Instruction) (σ : Scope) (count : UInt32) (rest : List Value),
    i.opcode = Opcode.memoryGrow → σ.store = s → σ.Reaches view.addr m →
    σ.operands = .i32 count :: rest →
    (∃ s', view.grow s count = some (m.pages, s') ∧ Step.plain options i σ =
      .ok () { σ with operands := .i32 (UInt32.ofNat m.pages) :: rest, store := s' }) ∨
    view.grow s count = none ∧
      Step.plain options i σ = .ok () { σ with operands := .i32 (-1) :: rest }
  /-- An access that fails leaves all as it was. -/
  failed : ∀ e : Embedding, e.store = s →
    (∀ (change : Store → Except Trap Store) (trap : Trap), change s = .error trap →
      Embed.writeView change e = .error (.fault trap.toFault) e) ∧
    ∀ count, view.grow s count = none → Embed.growView view count e = .ok none e

namespace MemoryView

variable {view : MemoryView} {s : Store} {m : MemInst}

theorem le_of_mem_widths {width : Nat} (known : width ∈ widths) : width ≤ 16 := by
  simp only [widths, List.mem_cons, List.not_mem_nil, or_false] at known
  omega

theorem agrees (found : s.memories[view.addr]? = some m) (few : m.pages ≤ maxPages) :
    view.Agrees s m where
  pages := pages_eq found few
  size := size_eq found
  reads options i t σ offset rest loads plain known here reaches top := by
    subst here
    obtain ⟨decode, gives, runs⟩ := Step.exists_load_eq loads options
    obtain ⟨start, check⟩ := Step.beyond_iff_of_plain offset m.data.size (le_of_mem_widths known)
    rw [readNumber_eq found offset (le_of_mem_widths known)]
    have run := runs σ view.addr m offset rest reaches top
    rw [start] at check run
    by_cases inside : offset.toNat + t.width ≤ m.data.size
    · have length : ((m.data.toList.drop offset.toNat).take t.width).length = t.width :=
        Cells.length_run (by rwa [Array.length_toList])
      have given := gives _ length
      have form := given.form
      rw [if_neg fun beyond => check.mp beyond inside] at run
      rw [plain] at form
      refine .inl ⟨_, _, if_pos inside, given.type, ?_, run⟩
      rw [form, BitVec.toNat_setWidth_of_le
        (Instruction.bits_le loads.known ⟨given.type, loads.ne_ref run⟩),
        Bytes.toNat_number length]
    · exact .inr ⟨_, if_neg inside, run.trans (if_pos (check.mpr inside))⟩
  writes options i t σ offset v n rest stores known takes here reaches top same := by
    subst here
    obtain ⟨start, check⟩ := Step.beyond_iff_of_plain offset m.data.size (le_of_mem_widths known)
    rw [writeNumber_eq found offset (le_of_mem_widths known),
      Step.store_eq stores options takes reaches top, start]
    rw [start] at check
    by_cases inside : offset.toNat + t.width ≤ m.data.size
    · refine .inl ⟨_, if_pos inside, ?_⟩
      rw [if_neg fun beyond => check.mp beyond inside, Encode.littleEndian_congr same]
    · exact .inr ⟨_, if_neg inside, if_pos (check.mpr inside)⟩
  grows options i σ count rest known here reaches top := by
    subst here
    rw [Step.plain_memoryGrow known, Step.memoryGrow_eq reaches top, grow_eq found]
    by_cases room : m.pages + count.toNat ≤ m.limit
    · exact .inl ⟨_, if_pos room, if_pos room⟩
    · exact .inr ⟨if_neg room, if_neg room⟩
  failed e here := by
    subst here
    refine ⟨fun change trap fails => ?_, fun count full => ?_⟩
    · rw [Embed.writeView_eq, fails]
    · rw [Embed.growView_eq, full]

end MemoryView

end WasmMachine
