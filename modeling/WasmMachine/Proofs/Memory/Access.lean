/-
# Loads and stores are exact

With an offset that fits in 32 bits, as in every module that was read from its bytes, base and
offset add up without wrapping around.  Then a load or store traps exactly when its bytes do
not all lie in the memory.  Otherwise a store changes just these bytes, to the low ones of its
operand, and a load gives the number that they stand for, in the form that its name says.

So what was stored is loaded again, cut down to the bytes that were stored and widened as the
load says, and a load of other bytes does not see the store.
-/

import WasmMachine.Proofs.Memory.Address
import WasmMachine.Proofs.Memory.Transfer

namespace WasmMachine

/-- The number that a run of a memory stands for. -/
def Cells.number (cells : Array UInt8) (start width : Nat) : BitVec (8 * width) :=
  Bytes.number width ((cells.toList.drop start).take width)

namespace Step

/-- How a load of the bytes from `start` on ends: it traps exactly when they do not all lie in
the memory, and otherwise gives what its name says. -/
def LoadsAt (step : Step Unit) (s : Scope) (m : MemInst) (t : Transfer) (start : Nat)
    (rest : List Value) : Prop :=
  Ends step s
    (fun _ s' => ¬ m.data.size < start + t.width ∧
      ∃ u, t.Gives (Cells.number m.data start t.width) u ∧ s' = { s with operands := u :: rest })
    fun trap s' => m.data.size < start + t.width ∧ trap = .memoryBounds ∧
      s' = { s with operands := rest }

/-- How a store to the bytes from `start` on ends: it traps exactly when they do not all lie in
the memory, and otherwise just these bytes are changed, to the low ones of the operand. -/
def StoresAt (step : Step Unit) (s : Scope) (addr : Addr) (m : MemInst) (t : Transfer) (v : Value)
    (start : Nat) (rest : List Value) : Prop :=
  Moves step s rest .memoryBounds (m.data.size < start + t.width) fun store =>
    ∃ data, s.store.WithMemory store addr m data ∧
      Cells.Copied (Encode.littleEndian t.width v.bits.toNat) 0 m.data data start t.width

variable {i : Instruction} {t : Transfer} {offset : UInt64} {s : Scope} {addr : Addr} {m : MemInst}
  {v : Value} {base : UInt32} {rest : List Value}

/-- A load gives a function of its bytes, which lie at the effective address. -/
theorem exists_load_eq (moves : i.Loads t offset) (options : Options) :
    ∃ decode : List UInt8 → Value,
      (∀ bytes, bytes.length = t.width → t.Gives (Bytes.number t.width bytes) (decode bytes)) ∧
      ∀ (s : Scope) (addr : Addr) (m : MemInst) (base : UInt32) (rest : List Value),
        s.Reaches addr m → s.operands = .i32 base :: rest →
        plain options i s =
          if Beyond (effective base offset) t.width m.data.size then
            .error .memoryBounds { s with operands := rest }
          else .ok () { s with
            operands :=
              decode ((m.data.toList.drop (effective base offset)).take t.width) :: rest } := by
  obtain ⟨decode, gives, runs⟩ := moves.exists_decode options
  refine ⟨decode, gives, fun s addr m base rest reaches top => ?_⟩
  have narrow : t.width < 2 ^ 64 :=
    Nat.lt_of_le_of_lt (Instruction.width_le moves.known) (by decide)
  rw [runs]
  simp only [bind, EStateM.bind, loadBytes_eq reaches top narrow]
  by_cases beyond : Beyond (effective base offset) t.width m.data.size
  · rw [if_pos beyond, if_pos beyond]
  · rw [if_neg beyond, if_neg beyond]
    rfl

/-- A store writes to the effective address. -/
theorem store_moves (moves : i.Stores t offset) (options : Options) (takes : t.Takes v)
    (reaches : s.Reaches addr m) (top : s.operands = v :: .i32 base :: rest) :
    Moves (plain options i) s rest .memoryBounds
      (Beyond (effective base offset) t.width m.data.size) fun store =>
        ∃ data, s.store.WithMemory store addr m data ∧
          Cells.Copied (Encode.littleEndian t.width v.bits.toNat) 0 m.data data
            (effective base offset) t.width := by
  have length := Decoder.length_littleEndian t.width v.bits.toNat
  have narrow : t.width < 2 ^ 64 :=
    Nat.lt_of_le_of_lt (Instruction.width_le moves.known) (by decide)
  have reaches' : ({ s with operands := .i32 base :: rest } : Scope).Reaches addr m := reaches
  unfold Moves Ends
  rw [moves.plain_eq options takes top, storeBytes_eq reaches' rfl (by rwa [length]), length]
  by_cases beyond : Beyond (effective base offset) t.width m.data.size
  · rw [if_pos beyond]
    exact ⟨beyond, rfl, rfl⟩
  · have inside : effective base offset + t.width ≤ m.data.size :=
      Nat.not_lt.mp fun outside => beyond (.inl outside)
    rw [if_neg beyond]
    refine ⟨beyond, ⟨_, Store.withMemory_writeMemory reaches.found _ _, ?_⟩, rfl⟩
    have whole : 0 + t.width ≤ (Encode.littleEndian t.width v.bits.toNat).length := by omega
    have copied := Cells.copied_overwrite whole inside
    rwa [List.drop_zero, List.take_of_length_le (Nat.le_of_eq length)] at copied

/-! ## One access -/

/-- A load is exact at its effective address when its bytes are checked against the end of the
memory alone. -/
theorem loadsAt_effective (moves : i.Loads t offset) (options : Options)
    (reaches : s.Reaches addr m) (top : s.operands = .i32 base :: rest)
    (checked : Beyond (effective base offset) t.width m.data.size ↔
      m.data.size < effective base offset + t.width) :
    LoadsAt (plain options i) s m t (effective base offset) rest := by
  obtain ⟨decode, gives, runs⟩ := exists_load_eq moves options
  unfold LoadsAt Ends
  rw [runs s addr m base rest reaches top]
  by_cases beyond : Beyond (effective base offset) t.width m.data.size
  · rw [if_pos beyond]
    exact ⟨checked.mp beyond, rfl, rfl⟩
  · have inside := mt checked.mpr beyond
    rw [if_neg beyond]
    refine ⟨inside, _, gives _ (Cells.length_run ?_), rfl⟩
    rw [Array.length_toList]
    exact Nat.not_lt.mp inside

theorem storesAt_effective (moves : i.Stores t offset) (options : Options) (takes : t.Takes v)
    (reaches : s.Reaches addr m) (top : s.operands = v :: .i32 base :: rest)
    (checked : Beyond (effective base offset) t.width m.data.size ↔
      m.data.size < effective base offset + t.width) :
    StoresAt (plain options i) s addr m t v (effective base offset) rest := by
  unfold StoresAt
  rw [← propext checked]
  exact store_moves moves options takes reaches top

/-! ## A load after a store -/

section Pair

variable {i' : Instruction} {t' : Transfer} {offset' : UInt64} {base' : UInt32} {s' : Scope}

/-- After a store the running code works on the changed memory. -/
theorem reaches_of_withMemory {store : Store} {data : Array UInt8} (reaches : s.Reaches addr m)
    (written : s.store.WithMemory store addr m data) (operands : List Value) :
    ({ s with operands := operands, store := store } : Scope).Reaches addr
      (m.withData data) := by
  obtain ⟨inst, ⟨id, home, held⟩, here, -⟩ := reaches
  refine ⟨inst, ⟨id, home, ?_⟩, here, written.memories.here⟩
  show store.instances[id]? = some inst
  rw [written.elsewhere]
  exact held

/-- What was stored is loaded from the same bytes, in the form of the load. -/
theorem load_stored (stores : i.Stores t offset) (loads : i'.Loads t' offset') (options : Options)
    (takes : t.Takes v) (reaches : s.Reaches addr m) (top : s.operands = v :: .i32 base :: rest)
    (done : plain options i s = .ok () s') (width : t'.width = t.width)
    (same : effective base' offset' = effective base offset) (rest' : List Value) :
    ∃ u, t'.Gives (v.bits.setWidth (8 * t'.width)) u ∧
      plain options i' { s' with operands := .i32 base' :: rest' } =
        .ok () { s' with operands := u :: rest' } := by
  obtain ⟨inside, ⟨data, written, copied⟩, left⟩ :=
    (store_moves stores options takes reaches top).good done
  obtain ⟨decode, gives, runs⟩ := exists_load_eq loads options
  have found := reaches_of_withMemory reaches written (.i32 base' :: rest')
  have bytes := copied.run_inside
  have length := Decoder.length_littleEndian t.width v.bits.toNat
  rw [List.drop_zero, List.take_of_length_le (Nat.le_of_eq length)] at bytes
  rw [← copied.size, ← width, ← same] at inside
  rw [← width, ← same] at bytes
  refine ⟨decode (Encode.littleEndian t'.width v.bits.toNat), ?_, ?_⟩
  · rw [← Bytes.number_encode]
    exact gives _ (Decoder.length_littleEndian _ _)
  · rw [left, runs _ addr _ base' rest' found rfl, if_neg inside, bytes]

/-- A load of other bytes ends as it would have before the store. -/
theorem load_apart (stores : i.Stores t offset) (loads : i'.Loads t' offset') (options : Options)
    (takes : t.Takes v) (reaches : s.Reaches addr m) (top : s.operands = v :: .i32 base :: rest)
    (done : plain options i s = .ok () s')
    (disjoint : effective base' offset' + t'.width ≤ effective base offset ∨
      effective base offset + t.width ≤ effective base' offset') (rest' : List Value) (u : Value) :
    plain options i' { s' with operands := .i32 base' :: rest' } =
        .ok () { s' with operands := u :: rest' } ↔
      plain options i' { s with operands := .i32 base' :: rest' } =
        .ok () { s with operands := u :: rest' } := by
  obtain ⟨-, ⟨data, written, copied⟩, left⟩ :=
    (store_moves stores options takes reaches top).good done
  obtain ⟨decode, -, runs⟩ := exists_load_eq loads options
  have before : ({ s with operands := .i32 base' :: rest' } : Scope).Reaches addr m := reaches
  have after := reaches_of_withMemory reaches written (.i32 base' :: rest')
  rw [left, runs _ addr _ base' rest' after rfl, runs _ addr _ base' rest' before rfl, copied.size,
    copied.run_outside disjoint]
  by_cases beyond : Beyond (effective base' offset') t'.width m.data.size
  · rw [if_pos beyond, if_pos beyond]
    simp
  · rw [if_neg beyond, if_neg beyond]
    simp

end Pair

end Step

/-! ## All of it -/

namespace Scope

/-- Loads and stores with offsets that fit in 32 bits do what their names say. -/
structure MemoryExact (s : Scope) (addr : Addr) (m : MemInst) : Prop where
  load : ∀ (options : Options) (i : Instruction) (t : Transfer) (offset : UInt64) (base : UInt32)
      (rest : List Value),
    i.Loads t offset → offset.toNat < 2 ^ 32 → s.operands = .i32 base :: rest →
    Step.LoadsAt (Step.plain options i) s m t (base.toNat + offset.toNat) rest
  store : ∀ (options : Options) (i : Instruction) (t : Transfer) (offset : UInt64) (v : Value)
      (base : UInt32) (rest : List Value),
    i.Stores t offset → offset.toNat < 2 ^ 32 → t.Takes v → s.operands = v :: .i32 base :: rest →
    Step.StoresAt (Step.plain options i) s addr m t v (base.toNat + offset.toNat) rest
  /-- What was stored is loaded from the same bytes, cut down and widened again. -/
  stored : ∀ (options : Options) (i i' : Instruction) (t t' : Transfer) (offset offset' : UInt64)
      (v : Value) (base base' : UInt32) (rest rest' : List Value) (s' : Scope),
    i.Stores t offset → i'.Loads t' offset' →
    offset.toNat < 2 ^ 32 → offset'.toNat < 2 ^ 32 → t.Takes v →
    s.operands = v :: .i32 base :: rest → Step.plain options i s = .ok () s' →
    t'.width = t.width → base'.toNat + offset'.toNat = base.toNat + offset.toNat →
    ∃ u, t'.Gives (v.bits.setWidth (8 * t'.width)) u ∧
      Step.plain options i' { s' with operands := .i32 base' :: rest' } =
        .ok () { s' with operands := u :: rest' }
  /-- Other bytes are loaded as if nothing had been stored. -/
  apart : ∀ (options : Options) (i i' : Instruction) (t t' : Transfer) (offset offset' : UInt64)
      (v : Value) (base base' : UInt32) (rest rest' : List Value) (s' : Scope),
    i.Stores t offset → i'.Loads t' offset' →
    offset.toNat < 2 ^ 32 → offset'.toNat < 2 ^ 32 → t.Takes v →
    s.operands = v :: .i32 base :: rest → Step.plain options i s = .ok () s' →
    (base'.toNat + offset'.toNat + t'.width ≤ base.toNat + offset.toNat ∨
      base.toNat + offset.toNat + t.width ≤ base'.toNat + offset'.toNat) →
    ∀ u, Step.plain options i' { s' with operands := .i32 base' :: rest' } =
        .ok () { s' with operands := u :: rest' } ↔
      Step.plain options i' { s with operands := .i32 base' :: rest' } =
        .ok () { s with operands := u :: rest' }

/-- Every load, every store, and every load after a store, in code that has a memory. -/
theorem memory_exact {s : Scope} {addr : Addr} {m : MemInst} (reaches : s.Reaches addr m) :
    s.MemoryExact addr m where
  load options i t offset base rest loads narrow top := by
    rw [← Step.effective_of_narrow narrow]
    exact Step.loadsAt_effective loads options reaches top
      (Step.beyond_iff_of_narrow narrow (Instruction.width_le loads.known))
  store options i t offset v base rest stores narrow takes top := by
    rw [← Step.effective_of_narrow narrow]
    exact Step.storesAt_effective stores options takes reaches top
      (Step.beyond_iff_of_narrow narrow (Instruction.width_le stores.known))
  stored options i i' t t' offset offset' v base base' rest rest' s' stores loads narrow narrow'
      takes top done width same := by
    rw [← Step.effective_of_narrow narrow, ← Step.effective_of_narrow narrow'] at same
    exact Step.load_stored stores loads options takes reaches top done width same rest'
  apart options i i' t t' offset offset' v base base' rest rest' s' stores loads narrow narrow'
      takes top done disjoint u := by
    rw [← Step.effective_of_narrow narrow, ← Step.effective_of_narrow narrow'] at disjoint
    exact Step.load_apart stores loads options takes reaches top done disjoint rest' u

/-- A memory of eight bytes, which the running code is about to change. -/
def storing : Scope where
  operands := [.i32 0x1fe80, .i32 2]
  frame := some ⟨some 0, #[], 0⟩
  store :=
    { memories := #[⟨⟨⟨1, none⟩⟩, ⟨#[1, 2, 3, 4, 5, 6, 7, 8]⟩⟩]
      instances := #[{ memories := #[0] }] }

/-- What is left of the operand in two bytes comes back with its sign. -/
theorem memory_exact_storing :
    storing.MemoryExact 0 ⟨⟨⟨1, none⟩⟩, ⟨#[1, 2, 3, 4, 5, 6, 7, 8]⟩⟩ ∧
      (Instruction.plain 0x3b (some (.memory ⟨0, 3⟩))).Stores
        ⟨.i32, 2, true, .zeroExtended⟩ 3 ∧
      (Instruction.plain 0x2e (some (.memory ⟨0, 5⟩))).Loads
        ⟨.i32, 2, false, .signExtended⟩ 5 ∧
      ∃ s', Step.plain {} (.plain 0x3b (some (.memory ⟨0, 3⟩))) storing = .ok () s' ∧
        s'.store.memories[0]?.map (·.data) = some #[1, 2, 3, 4, 5, 0x80, 0xfe, 8] ∧
        Step.plain {} (.plain 0x2e (some (.memory ⟨0, 5⟩)))
            { s' with operands := [.i32 0] } =
          .ok () { s' with operands := [.i32 0xfffffe80] } := by
  refine ⟨memory_exact ⟨_, ⟨0, rfl, rfl⟩, rfl, rfl⟩, ⟨rfl, rfl⟩, ⟨rfl, rfl⟩, ?_⟩
  rw [Instruction.plain_scalar rfl, Instruction.plain_scalar rfl]
  exact ⟨_, rfl, rfl, rfl⟩

end Scope

end WasmMachine
