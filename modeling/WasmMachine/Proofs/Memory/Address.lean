/-
# Effective addresses

An access starts at the sum of the base on the stack and the constant offset.  That sum is
taken in 64 bits, so it is the sum of the two numbers only as long as it stays below `2 ^ 64`.
From there on the access is checked well: it goes through exactly when its last byte lies in
the memory, and it reads or writes nothing otherwise.
-/

import WasmMachine.Machine.Memories
import WasmMachine.Proofs.Memory.Runs
import WasmMachine.Proofs.Memory.Surroundings

namespace WasmMachine

/-- The memory that the running code works on: the first one of its instance. -/
def Scope.Reaches (s : Scope) (addr : Addr) (m : MemInst) : Prop :=
  ∃ inst, s.RunsIn inst ∧ inst.memories[0]? = some addr ∧ s.store.memories[addr]? = some m

theorem Scope.Reaches.found {s : Scope} {addr : Addr} {m : MemInst} (reaches : s.Reaches addr m) :
    s.store.memories[addr]? = some m := by
  obtain ⟨inst, -, -, found⟩ := reaches
  exact found

namespace Step

/-- The number that base and offset add up to in 64 bits. -/
def effective (base : UInt32) (offset : UInt64) : Nat := (base.toNat + offset.toNat) % 2 ^ 64

/-- Some of the bytes are behind the end of the memory, or behind every address. -/
def Beyond (start width size : Nat) : Prop := size < start + width ∨ 2 ^ 64 ≤ start + width

instance (start width size : Nat) : Decidable (Beyond start width size) :=
  inferInstanceAs (Decidable (_ ∨ _))

theorem toNat_effective (base : UInt32) (offset : UInt64) :
    (base.toUInt64 + offset).toNat = effective base offset := by
  rw [UInt64.toNat_add, UInt32.toNat_toUInt64, effective]

theorem effective_of_lt {base : UInt32} {offset : UInt64}
    (small : base.toNat + offset.toNat < 2 ^ 64) :
    effective base offset = base.toNat + offset.toNat := Nat.mod_eq_of_lt small

/-- With an offset that fits in 32 bits, nothing comes near the end of the addresses. -/
theorem effective_of_narrow {base : UInt32} {offset : UInt64} (narrow : offset.toNat < 2 ^ 32) :
    effective base offset = base.toNat + offset.toNat := by
  have below := base.toNat_lt
  exact effective_of_lt (by omega)

theorem beyond_iff_of_narrow {base : UInt32} {offset : UInt64} {width size : Nat}
    (narrow : offset.toNat < 2 ^ 32) (few : width ≤ 16) :
    Beyond (effective base offset) width size ↔ size < effective base offset + width := by
  have below := base.toNat_lt
  rw [effective_of_narrow narrow, Beyond]
  omega

/-- A memory that ends before the addresses do is reached past its end first. -/
theorem beyond_iff_of_size {start width size : Nat} (small : size < 2 ^ 64) :
    Beyond start width size ↔ size < start + width := by
  rw [Beyond]
  omega

/-- The check of an access looks at the end, which may itself have wrapped around. -/
theorem beyond_iff (start : UInt64) (size : Nat) {width : Nat} (narrow : width < 2 ^ 64) :
    start + UInt64.ofNat width < start ∨ size < (start + UInt64.ofNat width).toNat ↔
      Beyond start.toNat width size := by
  have below := start.toNat_lt
  rw [UInt64.lt_iff_toNat_lt, UInt64.toNat_add, UInt64.toNat_ofNat_of_lt' narrow, Beyond]
  omega

variable {s : Scope} {addr : Addr} {m : MemInst} {base : UInt32} {offset : UInt64} {width : Nat}
  {rest : List Value}

theorem memoryAddress_eq (reaches : s.Reaches addr m) : memoryAddress 0 s = .ok addr s := by
  obtain ⟨inst, ⟨id, home, held⟩, here, -⟩ := reaches
  exact address_eq home held .noMemory here

theorem accessStart_eq (found : s.store.memories[addr]? = some m)
    (top : s.operands = .i32 base :: rest) (narrow : width < 2 ^ 64) :
    accessStart addr offset width s =
      if Beyond (effective base offset) width m.data.size then
        .error .memoryBounds { s with operands := rest }
      else .ok (effective base offset) { s with operands := rest } := by
  obtain ⟨operands, frame, store⟩ := s
  obtain rfl : operands = .i32 base :: rest := top
  have check := beyond_iff (base.toUInt64 + offset) m.data.size narrow
  rw [toNat_effective] at check
  unfold accessStart
  simp only [bind, EStateM.bind, fetch_eq (.noMemory 0) found, popI32, m.size_bytes]
  by_cases beyond : Beyond (effective base offset) width m.data.size
  · rw [if_pos beyond, if_pos (check.mpr beyond)]
    rfl
  · rw [if_neg beyond, if_neg (mt check.mp beyond)]
    exact congrArg (EStateM.Result.ok · _) (toNat_effective base offset)

/-- Reading gives the bytes at the effective address. -/
theorem loadBytes_eq (reaches : s.Reaches addr m) (top : s.operands = .i32 base :: rest)
    (narrow : width < 2 ^ 64) :
    loadBytes offset width s =
      if Beyond (effective base offset) width m.data.size then
        .error .memoryBounds { s with operands := rest }
      else .ok ((m.data.toList.drop (effective base offset)).take width)
        { s with operands := rest } := by
  have found := reaches.found
  unfold loadBytes
  simp only [bind, EStateM.bind, memoryAddress_eq reaches, accessStart_eq found top narrow]
  by_cases beyond : Beyond (effective base offset) width m.data.size
  · rw [if_pos beyond, if_pos beyond]
  · have inside : effective base offset + width ≤ m.data.size :=
      Nat.not_lt.mp fun outside => beyond (.inl outside)
    rw [if_neg beyond, if_neg beyond]
    simp only [fetch_eq (s := { s with operands := rest }) (.noMemory 0) found,
      Packed.read?_eq, Cells.read?_of_le inside]
    rfl

/-- Writing puts the bytes at the effective address. -/
theorem storeBytes_eq {bytes : List UInt8} (reaches : s.Reaches addr m)
    (top : s.operands = .i32 base :: rest) (narrow : bytes.length < 2 ^ 64) :
    storeBytes offset bytes s =
      if Beyond (effective base offset) bytes.length m.data.size then
        .error .memoryBounds { s with operands := rest }
      else .ok () { s with
        operands := rest
        store := s.store.writeMemory addr (effective base offset) bytes } := by
  unfold storeBytes
  simp only [bind, EStateM.bind, memoryAddress_eq reaches, accessStart_eq reaches.found top narrow]
  by_cases beyond : Beyond (effective base offset) bytes.length m.data.size
  · rw [if_pos beyond, if_pos beyond]
  · rw [if_neg beyond, if_neg beyond]
    rfl

end Step

end WasmMachine
