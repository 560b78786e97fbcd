/-
# Where effective addresses wrap around

The sum of base and offset is taken in 64 bits, and only the end of an access is checked for
having wrapped around.  A base has 32 bits, so this can be seen only with offsets above
`2 ^ 64 - 2 ^ 32`.  No bytes of a module spell such an offset, but the checks of a module let
it pass.  Then an access whose address wraps around touches the bytes at the low address that
is left over, when these lie in the memory.

An access is therefore what base and offset say exactly as long as their sum does not wrap
around, or as long as what is left over is out of bounds as well.
-/

import WasmMachine.Proofs.Memory.Access
import WasmMachine.Typing.Module

namespace WasmMachine

/-- The sum of base and offset is an address, or what is left of it is out of bounds too. -/
def Step.Unwrapped (base : UInt32) (offset : UInt64) (width size : Nat) : Prop :=
  base.toNat + offset.toNat < 2 ^ 64 ∨ size < base.toNat + offset.toNat - 2 ^ 64 + width

/-- Something is known to happen at the address that is left over. It happens at the sum itself
exactly when the two are the same, or both are out of bounds. -/
theorem Ends.unwrapped_iff {ε σ α : Type} {action : EStateM ε σ α} {s : σ}
    {G : Nat → α → σ → Prop} {Bad : ε → σ → Prop} {base : UInt32} {offset : UInt64}
    {width size : Nat} (small : size < 2 ^ 64)
    (wrapped : Ends action s
      (fun a s' => ¬ size < Step.effective base offset + width ∧
        G (Step.effective base offset) a s')
      fun e s' => size < Step.effective base offset + width ∧ Bad e s') :
    Ends action s
        (fun a s' => ¬ size < base.toNat + offset.toNat + width ∧
          G (base.toNat + offset.toNat) a s')
        (fun e s' => size < base.toNat + offset.toNat + width ∧ Bad e s') ↔
      Step.Unwrapped base offset width size := by
  have base_lt := base.toNat_lt
  have offset_lt := offset.toNat_lt
  unfold Step.Unwrapped
  by_cases below : base.toNat + offset.toNat < 2 ^ 64
  · rw [Step.effective_of_lt below] at wrapped
    exact ⟨fun _ => .inl below, fun _ => wrapped⟩
  · have left : Step.effective base offset = base.toNat + offset.toNat - 2 ^ 64 := by
      unfold Step.effective
      omega
    have outside : size < base.toNat + offset.toNat + width := by omega
    rw [left] at wrapped
    unfold Ends at wrapped ⊢
    generalize action s = result at wrapped ⊢
    cases result with
    | ok a s' =>
        have inside := wrapped.1
        exact ⟨fun right => absurd outside right.1, fun unwrapped =>
          absurd (unwrapped.resolve_left below) inside⟩
    | error e s' => exact ⟨fun _ => .inr wrapped.1, fun _ => ⟨outside, wrapped.2⟩⟩

namespace Step

variable {i : Instruction} {t : Transfer} {offset : UInt64} {s : Scope} {addr : Addr} {m : MemInst}
  {v : Value} {base : UInt32} {rest : List Value}

theorem loadsAt_iff (loads : i.Loads t offset) (options : Options) (reaches : s.Reaches addr m)
    (small : m.data.size < 2 ^ 64) (top : s.operands = .i32 base :: rest) :
    LoadsAt (plain options i) s m t (base.toNat + offset.toNat) rest ↔
      Unwrapped base offset t.width m.data.size := by
  have wrapped := loadsAt_effective loads options reaches top (beyond_iff_of_size small)
  unfold LoadsAt at wrapped ⊢
  exact Ends.unwrapped_iff (G := fun start _ (s' : Scope) => ∃ u,
    t.Gives (Cells.number m.data start t.width) u ∧ s' = { s with operands := u :: rest })
    small wrapped

theorem storesAt_iff (stores : i.Stores t offset) (options : Options) (takes : t.Takes v)
    (reaches : s.Reaches addr m) (small : m.data.size < 2 ^ 64)
    (top : s.operands = v :: .i32 base :: rest) :
    StoresAt (plain options i) s addr m t v (base.toNat + offset.toNat) rest ↔
      Unwrapped base offset t.width m.data.size := by
  have wrapped := storesAt_effective stores options takes reaches top (beyond_iff_of_size small)
  unfold StoresAt Moves at wrapped ⊢
  exact Ends.unwrapped_iff (G := fun start _ (s' : Scope) =>
    (∃ data, s.store.WithMemory s'.store addr m data ∧
      Cells.Copied (Encode.littleEndian t.width v.bits.toNat) 0 m.data data start t.width) ∧
    s' = { s with operands := rest, store := s'.store }) small wrapped

/-- For each offset without that room there is a base that makes it wrap around to the very
first byte. -/
theorem unwrapped_all_iff (offset : UInt64) (width size : Nat) :
    (∀ base, Unwrapped base offset width size) ↔
      offset.toNat + 2 ^ 32 ≤ 2 ^ 64 ∨ size < width := by
  have offset_lt := offset.toNat_lt
  constructor
  · intro unwrapped
    by_cases room : offset.toNat + 2 ^ 32 ≤ 2 ^ 64
    · exact .inl room
    · have fits : 2 ^ 64 - offset.toNat < 2 ^ 32 := by omega
      have base : (UInt32.ofNat (2 ^ 64 - offset.toNat)).toNat = 2 ^ 64 - offset.toNat :=
        UInt32.toNat_ofNat_of_lt' fits
      have first := unwrapped (UInt32.ofNat (2 ^ 64 - offset.toNat))
      rw [Unwrapped, base] at first
      omega
  · intro safe base
    have base_lt := base.toNat_lt
    unfold Unwrapped
    omega

end Step

namespace Scope

/-- Which accesses are what base and offset say, and which offsets make all of them so. -/
structure AddressesExact (s : Scope) (addr : Addr) (m : MemInst) : Prop where
  load : ∀ (options : Options) (i : Instruction) (t : Transfer) (offset : UInt64) (base : UInt32)
      (rest : List Value), i.Loads t offset → s.operands = .i32 base :: rest →
    (Step.LoadsAt (Step.plain options i) s m t (base.toNat + offset.toNat) rest ↔
      Step.Unwrapped base offset t.width m.data.size)
  store : ∀ (options : Options) (i : Instruction) (t : Transfer) (offset : UInt64) (v : Value)
      (base : UInt32) (rest : List Value), i.Stores t offset → t.Takes v →
    s.operands = v :: .i32 base :: rest →
    (Step.StoresAt (Step.plain options i) s addr m t v (base.toNat + offset.toNat) rest ↔
      Step.Unwrapped base offset t.width m.data.size)
  /-- A load is safe with every base when its offset leaves room for all of them. -/
  loadSafe : ∀ (options : Options) (i : Instruction) (t : Transfer) (offset : UInt64)
      (rest : List Value), i.Loads t offset →
    ((∀ base : UInt32, Step.LoadsAt (Step.plain options i)
        { s with operands := .i32 base :: rest } m t (base.toNat + offset.toNat) rest) ↔
      offset.toNat + 2 ^ 32 ≤ 2 ^ 64 ∨ m.data.size < t.width)
  storeSafe : ∀ (options : Options) (i : Instruction) (t : Transfer) (offset : UInt64) (v : Value)
      (rest : List Value), i.Stores t offset → t.Takes v →
    ((∀ base : UInt32, Step.StoresAt (Step.plain options i)
        { s with operands := v :: .i32 base :: rest } addr m t v (base.toNat + offset.toNat)
        rest) ↔
      offset.toNat + 2 ^ 32 ≤ 2 ^ 64 ∨ m.data.size < t.width)

/-- With any offset, an access is what base and offset say exactly when it does not wrap
around into the memory. -/
theorem addresses_exact {s : Scope} {addr : Addr} {m : MemInst} (reaches : s.Reaches addr m)
    (small : m.data.size < 2 ^ 64) : s.AddressesExact addr m where
  load options _ _ _ _ _ loads top := Step.loadsAt_iff loads options reaches small top
  store options _ _ _ _ _ _ stores takes top :=
    Step.storesAt_iff stores options takes reaches small top
  loadSafe options _ t offset rest loads := by
    rw [← Step.unwrapped_all_iff]
    exact forall_congr' fun base => Step.loadsAt_iff
      (s := { s with operands := .i32 base :: rest }) loads options reaches small rfl
  storeSafe options _ t offset v rest stores takes := by
    rw [← Step.unwrapped_all_iff]
    exact forall_congr' fun base => Step.storesAt_iff
      (s := { s with operands := v :: .i32 base :: rest }) stores options takes reaches small rfl

/-- One page of sevens. -/
def page : MemInst := ⟨⟨⟨1, none⟩⟩, ⟨Array.replicate pageSize 7⟩⟩

theorem size_page : page.data.size = 65536 := Array.size_replicate

/-- Code whose memory is that page, with a base of one at hand. -/
def paged : Scope where
  operands := [.i32 1]
  frame := some ⟨some 0, #[], 1⟩
  store := { memories := #[page], instances := #[{ memories := #[0] }] }

theorem paged_reaches : paged.Reaches 0 page := ⟨_, ⟨0, rfl, rfl⟩, rfl, rfl⟩

/-- A load whose offset is the greatest there is. -/
def wrappingLoad : Instruction := .plain 0x2d (some (.memory ⟨0, 0xffffffffffffffff⟩))

theorem addresses_exact_paged :
    paged.AddressesExact 0 page ∧
      wrappingLoad.Loads ⟨.i32, 1, false, .zeroExtended⟩ 0xffffffffffffffff ∧
      ¬ Step.Unwrapped 1 0xffffffffffffffff 1 page.data.size ∧
      Step.Unwrapped 1 0xffffffff 1 page.data.size := by
  refine ⟨addresses_exact paged_reaches (by rw [size_page]; decide), ⟨rfl, rfl⟩, ?_, ?_⟩
  · rw [size_page]
    unfold Step.Unwrapped
    decide
  · exact .inl (by decide)

/-- A module with one page and a function that loads with base one and the greatest offset. -/
def wrapping : Module :=
  { types := [⟨[], [.i32]⟩]
    funcs := [0]
    memories := [⟨⟨1, none⟩⟩]
    code := [⟨[], [.plain Opcode.i32Const (some (.i32 1)), wrappingLoad]⟩] }

/-- The module passes its checks, and the load does not trap: it reads the first byte. -/
theorem load_wraps : wrapping.validate = .ok () ∧
    (∃ body ∈ wrapping.code, wrappingLoad ∈ body.body) ∧
    wrappingLoad.Loads ⟨.i32, 1, false, .zeroExtended⟩ 0xffffffffffffffff ∧
    page.data.size < 1 + 0xffffffffffffffff + 1 ∧
    Step.plain {} wrappingLoad paged = .ok () { paged with operands := [.i32 7] } := by
  have start : Step.effective 1 0xffffffffffffffff = 0 := by decide
  have run : (page.data.toList.drop 0).take 1 = [7] := by
    rw [page, Array.toList_replicate, List.drop_zero, List.take_replicate]
    rfl
  have read : Step.loadBytes 0xffffffffffffffff 1 paged =
      .ok [7] { paged with operands := [] } := by
    rw [Step.loadBytes_eq paged_reaches rfl (by decide), start, run, size_page,
      if_neg (by decide)]
  refine ⟨rfl, ⟨_, List.mem_singleton.mpr rfl, by simp⟩, ⟨rfl, rfl⟩, ?_, ?_⟩
  · rw [size_page]
    decide
  · have offset : wrappingLoad.memArg.offset = 0xffffffffffffffff := rfl
    rw [Instruction.plain_scalar (a := ⟨.i32, 1, false, false⟩) rfl,
      Instruction.memoryAccess_load rfl, offset, bind_eq_of_ok read]
    rfl

end Scope

end WasmMachine
