/-
# Groups of seven bits

A number of variable length is a run of groups; `unsignedValue` and `signedValue`
say which integer a run stands for.  Reading is compared with these values from
both sides: a run within the budget whose value fits is read as that value, and
whatever is read was such a run.  Writing gives a run of the number, and no run
of it is shorter.
-/

import WasmMachine.Proofs.Binary.Reading

namespace WasmMachine

namespace Leb128

/-- A run of groups: every byte but the last says that another follows. -/
inductive Groups : List UInt8 → Prop
  | last {b : UInt8} : b.toNat < 128 → Groups [b]
  | more {b : UInt8} {bs : List UInt8} : 128 ≤ b.toNat → Groups bs → Groups (b :: bs)

/-- The natural number of a run, its first group lowest. -/
def unsignedValue : List UInt8 → Nat
  | [] => 0
  | b :: bs => b.toNat % 128 + 128 * unsignedValue bs

/-- The integer of a run, whose last group is read with a sign. -/
def signedValue : List UInt8 → Int
  | [] => 0
  | [b] => if b.toNat % 128 < 64 then (b.toNat % 128 : Nat) else (b.toNat % 128 : Nat) - 128
  | b :: bs => (b.toNat % 128 : Nat) + 128 * signedValue bs

theorem signedValue_cons (b : UInt8) {bs : List UInt8} (groups : Groups bs) :
    signedValue (b :: bs) = (b.toNat % 128 : Nat) + 128 * signedValue bs := by
  cases groups <;> rfl

theorem Groups.length_pos {bs : List UInt8} (groups : Groups bs) : 0 < bs.length := by
  cases groups <;> simp

/-- A run of `k` groups has room for `7 * k` bits. -/
theorem unsignedValue_lt (bs : List UInt8) : unsignedValue bs < 128 ^ bs.length := by
  induction bs with
  | nil => simp [unsignedValue]
  | cons b bs ih =>
      simp only [unsignedValue, List.length_cons, Nat.pow_succ]
      omega

/-- With a sign there is one bit less on either side. -/
theorem signedValue_bounds {bs : List UInt8} (groups : Groups bs) :
    -(64 * 128 ^ (bs.length - 1)) ≤ signedValue bs ∧
      signedValue bs < 64 * 128 ^ (bs.length - 1) := by
  induction groups with
  | @last b low =>
      simp only [signedValue, List.length_singleton, Nat.sub_self, Int.pow_zero]
      split <;> omega
  | @more b bs _ groups ih =>
      obtain ⟨n, length⟩ := Nat.exists_eq_succ_of_ne_zero (Nat.ne_of_gt groups.length_pos)
      rw [signedValue_cons b groups]
      simp only [length, List.length_cons, Nat.succ_eq_add_one, Nat.add_sub_cancel] at ih ⊢
      rw [Int.pow_succ]
      omega

/-! ## The bits of a byte -/

private theorem byte_bits : ∀ n < 256,
    (UInt8.ofNat n &&& 0x7f).toNat = n % 128 ∧
    ((UInt8.ofNat n &&& 0x80 == 0) = decide (n < 128)) ∧
    ((UInt8.ofNat n &&& 0x40 == 0) = decide (n % 128 < 64)) ∧
    ((UInt8.ofNat n &&& 0x70 == 0) = decide (n % 128 < 16)) ∧
    (UInt8.ofNat n ||| 0x80).toNat = n % 128 + 128 := by
  decide +kernel

/-- The low seven bits of a byte. -/
theorem toNat_and_group (b : UInt8) : (b &&& 0x7f).toNat = b.toNat % 128 := by
  simpa using (byte_bits b.toNat b.toNat_lt).1

/-- The top bit says that another byte follows. -/
theorem and_top_eq_zero (b : UInt8) : (b &&& 0x80 == 0) = decide (b.toNat < 128) := by
  simpa using (byte_bits b.toNat b.toNat_lt).2.1

/-- The sign of a last group. -/
theorem and_sign_eq_zero (b : UInt8) : (b &&& 0x40 == 0) = decide (b.toNat % 128 < 64) := by
  simpa using (byte_bits b.toNat b.toNat_lt).2.2.1

/-- The bits of a fifth group that 32 bits have no room for. -/
theorem and_spare_eq_zero (b : UInt8) : (b &&& 0x70 == 0) = decide (b.toNat % 128 < 16) := by
  simpa using (byte_bits b.toNat b.toNat_lt).2.2.2.1

theorem toNat_or_top (b : UInt8) : (b ||| 0x80).toNat = b.toNat % 128 + 128 := by
  simpa using (byte_bits b.toNat b.toNat_lt).2.2.2.2

/-- The bytes are a run of groups that stands for the 32-bit number `n`. -/
structure Unsigned (bs : List UInt8) (n : UInt32) : Prop where
  groups : Groups bs
  short : bs.length ≤ 5
  value : unsignedValue bs = n.toNat

/-- The bytes are a run of groups that stands for the number `v` of `width` bits.
Ten groups hold more than 64 bits, and the bits above those are not looked at. -/
structure Signed (width : Nat) (bs : List UInt8) (v : Int) : Prop where
  groups : Groups bs
  short : bs.length ≤ (width + 6) / 7
  value : (signedValue bs).bmod (2 ^ 64) = v
  lower : -2 ^ (width - 1) ≤ v
  upper : v < 2 ^ (width - 1)

end Leb128

namespace Decoder

open Leb128

/-! ## Reading unsigned numbers -/

/-- One group, once the tests on its bits are read as tests on its number. -/
private theorem unsignedGroups_succ (budget shift : Nat) (result : UInt32) :
    unsignedGroups (budget + 1) shift result = (do
      let b ← byte
      let more := result ||| (UInt32.ofNat (b.toNat % 128) <<< UInt32.ofNat shift)
      if shift = 28 ∧ 16 ≤ b.toNat % 128 then failHere .overflow
      else if b.toNat < 128 then pure more
      else unsignedGroups budget (shift + 7) more) := by
  simp only [unsignedGroups, failHere_bind, and_top_eq_zero, bne, and_spare_eq_zero,
    toNat_and_group]
  simp

/-- A group is put in above the groups that are there. -/
private theorem toNat_or_group {shift group : Nat} {result : UInt32} (small : shift < 32)
    (below : result.toNat < 2 ^ shift) (fits : 2 ^ shift * group < 2 ^ 32) :
    (result ||| (UInt32.ofNat group <<< UInt32.ofNat shift)).toNat =
      result.toNat + 2 ^ shift * group := by
  have group_lt : group < UInt32.size :=
    Nat.lt_of_le_of_lt (Nat.le_mul_of_pos_left group (Nat.two_pow_pos shift)) fits
  have shift_lt : shift < UInt32.size := Nat.lt_trans small (by decide)
  rw [UInt32.toNat_or, UInt32.toNat_shiftLeft, UInt32.toNat_ofNat_of_lt' group_lt,
    UInt32.toNat_ofNat_of_lt' shift_lt, Nat.mod_eq_of_lt small, Nat.shiftLeft_eq,
    Nat.mul_comm group, Nat.mod_eq_of_lt fits, Nat.or_comm,
    ← Nat.two_pow_add_eq_or_of_lt below, Nat.add_comm]

/-- The number so far and the groups to come, with the first of them taken in. -/
private theorem value_step (shift result group more : Nat) :
    result + 2 ^ shift * (group + 128 * more) =
      (result + 2 ^ shift * group) + 2 ^ (shift + 7) * more := by
  rw [Nat.mul_add, ← Nat.add_assoc, ← Nat.mul_assoc, Nat.pow_add]

private theorem below_step {shift result group : Nat} (below : result < 2 ^ shift)
    (small : group < 128) : result + 2 ^ shift * group < 2 ^ (shift + 7) := by
  have most : 2 ^ shift * group ≤ 2 ^ shift * 127 := Nat.mul_le_mul_left _ (by omega)
  rw [Nat.pow_add]
  omega

private theorem Reads.unsignedGroups {bs : List UInt8} (groups : Groups bs) :
    ∀ (budget shift : Nat) (result n : UInt32), shift + 7 * budget = 35 → bs.length ≤ budget →
      result.toNat < 2 ^ shift → n.toNat = result.toNat + 2 ^ shift * unsignedValue bs →
      Reads (Decoder.unsignedGroups budget shift result) bs n := by
  induction groups with
  | @last b low =>
      intro budget shift result n weight short below value
      obtain ⟨budget, rfl⟩ : ∃ k, budget = k + 1 := Nat.exists_eq_succ_of_ne_zero (by
        simp at short
        omega)
      simp only [unsignedValue, Nat.mul_zero, Nat.add_zero] at value
      have n_lt := n.toNat_lt
      have room : ¬ (shift = 28 ∧ 16 ≤ b.toNat % 128) := by
        rintro ⟨rfl, large⟩
        omega
      have equal : result ||| (UInt32.ofNat (b.toNat % 128) <<< UInt32.ofNat shift) = n := by
        rw [← UInt32.toNat_inj, toNat_or_group (by omega) below (by omega), value]
      rw [unsignedGroups_succ]
      refine Reads.bind_pure (Reads.byte b) ?_
      simp only [if_neg room, if_pos low, equal]
  | @more b bs high groups ih =>
      intro budget shift result n weight short below value
      have positive := groups.length_pos
      rw [List.length_cons] at short
      obtain ⟨budget, rfl⟩ : ∃ k, budget = k + 1 := Nat.exists_eq_succ_of_ne_zero (by omega)
      rw [unsignedValue, value_step] at value
      have n_lt := n.toNat_lt
      have room : ¬ (shift = 28 ∧ 16 ≤ b.toNat % 128) := by omega
      have fits : 2 ^ shift * (b.toNat % 128) < 2 ^ 32 := by omega
      have equal := toNat_or_group (by omega : shift < 32) below fits
      rw [unsignedGroups_succ]
      refine Reads.bind (Reads.byte b) ?_
      simp only [if_neg room, if_neg (Nat.not_lt.mpr high)]
      refine ih budget (shift + 7) _ n (by omega) (by omega) ?_ ?_
      · rw [equal]
        exact below_step below (by omega)
      · rw [equal, value]

/-- Every run of groups that stands for a number is read as that number. -/
theorem Reads.u32 {bs : List UInt8} {n : UInt32} (spelled : Unsigned bs n) :
    Reads Decoder.u32 bs n :=
  Reads.unsignedGroups spelled.groups 5 0 0 n rfl spelled.short (by decide)
    (by simp [spelled.value])

private theorem Yields.unsignedGroups (budget : Nat) :
    ∀ (shift : Nat) (result : UInt32), shift + 7 * budget = 35 → result.toNat < 2 ^ shift →
      Yields (Decoder.unsignedGroups budget shift result) fun bs n =>
        Groups bs ∧ bs.length ≤ budget ∧
          n.toNat = result.toNat + 2 ^ shift * unsignedValue bs := by
  induction budget with
  | zero => exact fun shift result _ _ => Yields.failHere .overflow
  | succ budget ih =>
      intro shift result weight below
      rw [unsignedGroups_succ]
      refine Yields.bind Yields.byte fun bytes b taken => ?_
      subst taken
      refine Yields.ite (fun _ => Yields.failHere .overflow) fun room => ?_
      have fits : 2 ^ shift * (b.toNat % 128) < 2 ^ 32 := by
        by_cases last : shift = 28
        · subst last
          omega
        · have power : 2 ^ shift ≤ 2 ^ 21 := Nat.pow_le_pow_right (by decide) (by omega)
          have most : 2 ^ shift * (b.toNat % 128) ≤ 2 ^ 21 * 127 :=
            Nat.mul_le_mul power (by omega)
          omega
      have equal := toNat_or_group (by omega) below fits
      refine Yields.ite (fun low => Yields.pure ?_) fun high => ?_
      · refine ⟨.last low, by simp, ?_⟩
        rw [equal]
        simp [unsignedValue]
      · have rest := ih (shift + 7) _ (by omega) (equal ▸ below_step below (by omega))
        refine rest.mono fun bs n found => ?_
        obtain ⟨groups, short, value⟩ := found
        refine ⟨.more (by omega) groups, by simpa using short, ?_⟩
        rw [List.singleton_append, unsignedValue, value_step, value, equal]

/-- Whatever is read as a number is a run of groups that stands for it. -/
theorem Yields.u32 : Yields Decoder.u32 Unsigned :=
  (Yields.unsignedGroups 5 0 0 rfl (by decide)).mono fun _ _ ⟨groups, short, value⟩ =>
    ⟨groups, short, by simpa using value.symm⟩

/-! ## Reading signed numbers -/

/-- One signed group, once the tests on its bits are read as tests on its number. -/
theorem signedGroups_succ (budget shift : Nat) (result : UInt64) :
    signedGroups (budget + 1) shift result = (do
      let b ← byte
      let more := result ||| (UInt64.ofNat (b.toNat % 128) <<< UInt64.ofNat shift)
      if 128 ≤ b.toNat then signedGroups budget (shift + 7) more
      else pure (if shift + 7 < 64 ∧ 64 ≤ b.toNat % 128 then
        more ||| (0xffffffffffffffff <<< UInt64.ofNat (shift + 7)) else more)) := by
  simp only [signedGroups, and_top_eq_zero, bne, and_sign_eq_zero, toNat_and_group,
    apply_ite pure]
  simp

private theorem toNat_shiftLeft_ofNat {shift : Nat} (a : UInt64) (small : shift < 64) :
    (a <<< UInt64.ofNat shift).toNat = 2 ^ shift * a.toNat % 2 ^ 64 := by
  have shift_lt : shift < UInt64.size := Nat.lt_trans small (by decide)
  rw [UInt64.toNat_shiftLeft, UInt64.toNat_ofNat_of_lt' shift_lt, Nat.mod_eq_of_lt small,
    Nat.shiftLeft_eq, Nat.mul_comm]

/-- What lies above is put in without a carry; bits above the sixty-fourth are
lost. -/
private theorem toNat_or_shiftLeft {shift : Nat} {result a : UInt64} (small : shift < 64)
    (below : result.toNat < 2 ^ shift) :
    (result ||| (a <<< UInt64.ofNat shift)).toNat =
      (result.toNat + 2 ^ shift * a.toNat) % 2 ^ 64 := by
  obtain ⟨more, equal⟩ : ∃ more, 2 ^ 64 = 2 ^ shift * more :=
    Nat.pow_dvd_pow 2 (Nat.le_of_lt small)
  rw [UInt64.toNat_or, toNat_shiftLeft_ofNat a small, equal, Nat.mul_mod_mul_left, Nat.or_comm,
    ← Nat.two_pow_add_eq_or_of_lt below, Nat.mod_mul, Nat.add_mul_mod_self_left,
    Nat.mod_eq_of_lt below, Nat.add_mul_div_left _ _ (Nat.two_pow_pos shift),
    Nat.div_eq_of_lt below, Nat.zero_add, Nat.add_comm]

/-- A group is put in above the groups that are there. -/
private theorem toInt_or_group {shift group : Nat} {result : UInt64} (small : shift < 64)
    (below : result.toNat < 2 ^ shift) (few : group < 128) :
    ((result ||| (UInt64.ofNat group <<< UInt64.ofNat shift)).toNat : Int) =
      (result.toNat + 2 ^ shift * group) % 2 ^ 64 := by
  have group_lt : group < UInt64.size := Nat.lt_trans few (by decide)
  rw [toNat_or_shiftLeft small below, UInt64.toNat_ofNat_of_lt' group_lt]
  simp

private theorem or_group_lt {shift group : Nat} {result : UInt64} (small : shift < 64)
    (below : result.toNat < 2 ^ shift) (few : group < 128) :
    (result ||| (UInt64.ofNat group <<< UInt64.ofNat shift)).toNat < 2 ^ (shift + 7) := by
  have group_lt : group < UInt64.size := Nat.lt_trans few (by decide)
  rw [toNat_or_shiftLeft small below, UInt64.toNat_ofNat_of_lt' group_lt]
  exact Nat.lt_of_le_of_lt (Nat.mod_le _ _) (below_step below few)

/-- Ones above a number make it negative. -/
private theorem toInt_or_ones {shift : Nat} {result : UInt64} (small : shift < 64)
    (below : result.toNat < 2 ^ shift) :
    ((result ||| (0xffffffffffffffff <<< UInt64.ofNat shift)).toNat : Int) =
      (result.toNat - 2 ^ shift) % 2 ^ 64 := by
  rw [toNat_or_shiftLeft small below]
  have ones : (0xffffffffffffffff : UInt64).toNat = 2 ^ 64 - 1 := by decide
  have shifted : ((result.toNat + 2 ^ shift * (2 ^ 64 - 1) : Nat) : Int) =
      (result.toNat - 2 ^ shift) + 2 ^ 64 * 2 ^ shift := by
    rw [Nat.mul_sub_one, Nat.mul_comm]
    have above : 2 ^ shift ≤ 2 ^ 64 * 2 ^ shift := Nat.le_mul_of_pos_left _ (by decide)
    rw [Int.natCast_add, Int.natCast_sub above, Int.natCast_mul, Int.natCast_pow]
    simp only [Int.sub_eq_add_neg, Int.add_assoc]
    congr 1
    exact Int.add_comm _ _
  rw [ones, Int.natCast_emod, shifted]
  exact Int.add_mul_emod_self_left _ _ _

/-- The integer so far and the groups to come, with the first of them taken in. -/
private theorem integer_step (shift group : Nat) (result more : Int) :
    result + 2 ^ shift * (group + 128 * more) =
      (result + 2 ^ shift * group) + 2 ^ (shift + 7) * more := by
  rw [Int.mul_add, ← Int.add_assoc, ← Int.mul_assoc, Int.pow_add]
  rfl

/-- The sign of a last group that reaches beyond the sixty-fourth bit is lost. -/
private theorem sign_step {shift : Nat} (beyond : 64 ≤ shift + 7) (result group : Int) :
    (result + 2 ^ shift * (group - 128)) % 2 ^ 64 = (result + 2 ^ shift * group) % 2 ^ 64 := by
  obtain ⟨more, equal⟩ : ∃ more, (2 : Int) ^ (shift + 7) = 2 ^ 64 * more :=
    ⟨2 ^ (shift + 7 - 64), by rw [← Int.pow_add, Nat.add_sub_cancel' beyond]⟩
  have shifted : result + 2 ^ shift * (group - 128) =
      (result + 2 ^ shift * group) + 2 ^ 64 * (-more) := by
    rw [Int.mul_neg, ← equal, Int.pow_add, Int.mul_sub]
    omega
  rw [shifted, Int.add_mul_emod_self_left]

/-- The last group gives the number the group stands for with its sign. -/
private theorem last_group {b : UInt8} {shift : Nat} {result more : UInt64}
    (grown : more.toNat < 2 ^ (shift + 7))
    (equal : (more.toNat : Int) = (result.toNat + 2 ^ shift * (b.toNat % 128 : Nat)) % 2 ^ 64) :
    ((if shift + 7 < 64 ∧ 64 ≤ b.toNat % 128 then
        more ||| (0xffffffffffffffff <<< UInt64.ofNat (shift + 7)) else more).toNat : Int) =
      (result.toNat + 2 ^ shift * signedValue [b]) % 2 ^ 64 := by
  simp only [signedValue]
  by_cases positive : b.toNat % 128 < 64
  · rw [if_neg (by omega), if_pos positive, equal]
  · rw [if_neg positive]
    by_cases room : shift + 7 < 64
    · rw [if_pos ⟨room, by omega⟩, toInt_or_ones room grown, equal, Int.emod_sub_emod,
        Int.mul_sub, Int.pow_add, Int.add_sub_assoc]
      rfl
    · rw [if_neg (by omega), equal, sign_step (by omega)]

private theorem Yields.signedGroups (budget : Nat) :
    ∀ (shift : Nat) (result : UInt64), shift + 7 * budget ≤ 70 → result.toNat < 2 ^ shift →
      Yields (Decoder.signedGroups budget shift result) fun bs n =>
        Groups bs ∧ bs.length ≤ budget ∧
          (n.toNat : Int) = (result.toNat + 2 ^ shift * signedValue bs) % 2 ^ 64 := by
  induction budget with
  | zero => exact fun shift result _ _ => Yields.failHere .overflow
  | succ budget ih =>
      intro shift result weight below
      rw [signedGroups_succ]
      refine Yields.bind Yields.byte fun bytes b taken => ?_
      subst taken
      have small : shift < 64 := by omega
      have few : b.toNat % 128 < 128 := Nat.mod_lt _ (by decide)
      have equal := toInt_or_group small below few
      have grown := or_group_lt small below few
      refine Yields.ite (fun high => ?_) fun low => ?_
      · refine (ih (shift + 7) _ (by omega) grown).mono fun bs n found => ?_
        obtain ⟨groups, short, value⟩ := found
        refine ⟨.more high groups, by simpa using short, ?_⟩
        rw [List.singleton_append, signedValue_cons b groups, integer_step, value, equal,
          Int.emod_add_emod]
      · have last := last_group grown equal
        exact Yields.pure ⟨.last (by omega), by simp, last⟩

private theorem Reads.signedGroups {bs : List UInt8} (groups : Groups bs) :
    ∀ (budget shift : Nat) (result n : UInt64), shift + 7 * budget ≤ 70 → bs.length ≤ budget →
      result.toNat < 2 ^ shift →
      (n.toNat : Int) = (result.toNat + 2 ^ shift * signedValue bs) % 2 ^ 64 →
      Reads (Decoder.signedGroups budget shift result) bs n := by
  induction groups with
  | @last b low =>
      intro budget shift result n weight short below value
      obtain ⟨budget, rfl⟩ : ∃ k, budget = k + 1 := Nat.exists_eq_succ_of_ne_zero (by
        simp at short
        omega)
      have small : shift < 64 := by omega
      have few : b.toNat % 128 < 128 := Nat.mod_lt _ (by decide)
      have last := last_group (or_group_lt small below few) (toInt_or_group small below few)
      rw [← value, Int.natCast_inj, UInt64.toNat_inj] at last
      rw [signedGroups_succ]
      refine Reads.bind_pure (Reads.byte b) ?_
      simp only [if_neg (Nat.not_le.mpr low), last]
  | @more b bs high groups ih =>
      intro budget shift result n weight short below value
      have positive := groups.length_pos
      rw [List.length_cons] at short
      obtain ⟨budget, rfl⟩ : ∃ k, budget = k + 1 := Nat.exists_eq_succ_of_ne_zero (by omega)
      have small : shift < 64 := by omega
      have few : b.toNat % 128 < 128 := Nat.mod_lt _ (by decide)
      rw [signedGroups_succ]
      refine Reads.bind (Reads.byte b) ?_
      simp only [if_pos high]
      refine ih budget (shift + 7) _ n (by omega) (by omega) (or_group_lt small below few) ?_
      rw [value, signedValue_cons b groups, integer_step, toInt_or_group small below few,
        Int.emod_add_emod]

/-- A 64-bit pattern, read as a signed number. -/
private theorem toInt_toInt64 {n : UInt64} {v : Int} (equal : (n.toNat : Int) = v % 2 ^ 64) :
    n.toInt64.toInt = v.bmod (2 ^ 64) := by
  have bits : n.toInt64.toInt = (n.toNat : Int).bmod (2 ^ 64) := BitVec.toInt_eq_toNat_bmod _
  rw [bits, equal]
  exact Int.emod_bmod ..

/-- The check on the width asks whether the number fits in it. -/
theorem signed_eq (width : Nat) :
    Decoder.signed width = (do
      let n ← Decoder.signedGroups ((width + 6) / 7) 0 0
      let v := n.toInt64.toInt
      if width < 64 ∧ ¬ (-2 ^ (width - 1) ≤ v ∧ v < 2 ^ (width - 1)) then failHere .overflow
      else pure v) := by
  simp only [Decoder.signed, failHere_bind]
  congr
  funext n
  simp only [Bool.and_eq_true, Bool.or_eq_true, decide_eq_true_eq]
  congr 1
  simp only [eq_iff_iff, and_congr_right_iff]
  intro _
  omega

private theorem toNat_ofInt (v : Int) : ((UInt64.ofInt v).toNat : Int) = v % 2 ^ 64 := by
  unfold UInt64.ofInt
  rw [UInt64.toNat_ofNat_of_lt' (by show _ < 2 ^ 64; omega)]
  omega

/-- An integer, cut to 64 bits and read with a sign. -/
theorem toInt_ofInt (v : Int) : (UInt64.ofInt v).toInt64.toInt = v.bmod (2 ^ 64) :=
  toInt_toInt64 (toNat_ofInt v)

/-- A run within the budget is read as its integer, cut to 64 bits. -/
theorem Reads.signedBits {budget : Nat} (most : budget ≤ 10) {bs : List UInt8}
    (groups : Groups bs) (short : bs.length ≤ budget) :
    Reads (Decoder.signedGroups budget 0 0) bs (UInt64.ofInt (signedValue bs)) :=
  Reads.signedGroups groups budget 0 0 _ (by omega) short (by decide)
    (by simpa using toNat_ofInt (signedValue bs))

/-- Every run of groups that stands for a signed number is read as that number. -/
theorem Reads.signed {width : Nat} (most : width ≤ 64) {bs : List UInt8} {v : Int}
    (spelled : Signed width bs v) : Reads (Decoder.signed width) bs v := by
  have fits : ¬ (width < 64 ∧ ¬ (-2 ^ (width - 1) ≤ v ∧ v < 2 ^ (width - 1))) := by
    rintro ⟨_, unfit⟩
    exact unfit ⟨spelled.lower, spelled.upper⟩
  rw [signed_eq]
  refine Reads.bind_pure (Reads.signedBits (by omega) spelled.groups spelled.short) ?_
  simp only [toInt_ofInt, spelled.value, if_neg fits]

/-- Whatever is read as a signed number is a run of groups that stands for it. -/
theorem Yields.signed {width : Nat} (most : width ≤ 64) :
    Yields (Decoder.signed width) (Signed width) := by
  rw [signed_eq]
  refine Yields.bind (Yields.signedGroups _ 0 0 (by omega) (by decide)) fun bs n found => ?_
  obtain ⟨groups, short, equal⟩ := found
  have value := toInt_toInt64 (v := signedValue bs) (by simpa using equal)
  refine Yields.ite (fun _ => Yields.failHere .overflow) fun fits => Yields.pure ?_
  rw [List.append_nil]
  have bounds : -2 ^ (width - 1) ≤ n.toInt64.toInt ∧ n.toInt64.toInt < 2 ^ (width - 1) := by
    by_cases narrow : width < 64
    · exact Decidable.not_not.mp fun unfit => fits ⟨narrow, unfit⟩
    · obtain rfl : width = 64 := by omega
      exact ⟨Int64.le_toInt _, Int64.toInt_lt _⟩
  exact ⟨groups, short, value.symm, bounds.1, bounds.2⟩

end Decoder

namespace Encode

open Leb128

/-! ## Writing numbers -/

private theorem toNat_group (n : Nat) : (UInt8.ofNat (n % 128)).toNat = n % 128 := by
  rw [UInt8.toNat_ofNat_of_lt' (Nat.lt_trans (Nat.mod_lt n (by decide)) (by decide))]

/-- A number is written as a run of its groups, and in no more groups than needed. -/
private theorem unsignedGroups_spec (fuel : Nat) : ∀ n < 128 ^ (fuel + 1),
    Groups (unsignedGroups (fuel + 1) n) ∧ unsignedValue (unsignedGroups (fuel + 1) n) = n ∧
      ∀ k, n < 128 ^ (k + 1) → (unsignedGroups (fuel + 1) n).length ≤ k + 1 := by
  induction fuel with
  | zero =>
      intro n small
      have last : n / 128 = 0 := Nat.div_eq_of_lt (by simpa using small)
      have value := toNat_group n
      simp only [unsignedGroups, last, beq_self_eq_true, if_true]
      exact ⟨.last (by omega), by simp only [unsignedValue]; omega, fun k _ => by simp⟩
  | succ fuel ih =>
      intro n small
      have value := toNat_group n
      unfold unsignedGroups
      by_cases last : n / 128 = 0
      · simp only [last, beq_self_eq_true, if_true]
        exact ⟨.last (by omega), by simp only [unsignedValue]; omega, fun k _ => by simp⟩
      · have marked := toNat_or_top (UInt8.ofNat (n % 128))
        have fewer : n / 128 < 128 ^ (fuel + 1) := by
          rw [Nat.pow_succ] at small
          omega
        obtain ⟨groups, rest, short⟩ := ih (n / 128) fewer
        simp only [beq_iff_eq, last, if_false]
        refine ⟨.more (by omega) groups, ?_, ?_⟩
        · rw [unsignedValue, rest]
          omega
        · intro k bound
          cases k with
          | zero => omega
          | succ k =>
              rw [Nat.pow_succ] at bound
              have := short k (by omega)
              simpa using this

/-- The one run of a number that a reader takes as that number and that the writer
gives. -/
theorem unsigned_u32 (n : UInt32) : Unsigned (u32 n) n := by
  have small : n.toNat < 2 ^ 32 := n.toNat_lt
  obtain ⟨groups, value, short⟩ := unsignedGroups_spec 4 n.toNat (by omega)
  exact ⟨groups, short 4 (by omega), value⟩

/-- The budget of the writer does not matter as long as it is enough. -/
private theorem unsignedGroups_budget (fuel more : Nat) : ∀ n < 128 ^ (fuel + 1),
    unsignedGroups (fuel + 1 + more) n = unsignedGroups (fuel + 1) n := by
  induction fuel with
  | zero =>
      intro n small
      have last : n / 128 = 0 := Nat.div_eq_of_lt (by simpa using small)
      rw [Nat.add_right_comm]
      simp [unsignedGroups, last]
  | succ fuel ih =>
      intro n small
      rw [Nat.add_right_comm]
      unfold unsignedGroups
      split
      · rfl
      · rw [ih (n / 128) (by rw [Nat.pow_succ] at small; omega)]

/-- A number that fits in 32 bits is written the same with room for 64. -/
theorem u64_toUInt64 (n : UInt32) : u64 n.toUInt64 = u32 n := by
  have small : n.toNat < 2 ^ 32 := n.toNat_lt
  unfold u64 u32
  rw [UInt32.toNat_toUInt64]
  exact unsignedGroups_budget 4 5 n.toNat (by omega)

/-- A number that fits in 32 bits survives being cut to them. -/
theorem toUInt64_toUInt32_of_lt {n : UInt64} (small : n.toNat < 2 ^ 32) :
    n.toUInt32.toUInt64 = n := by
  rw [← UInt64.toNat_inj, UInt32.toNat_toUInt64, UInt64.toNat_toUInt32]
  exact Nat.mod_eq_of_lt small

private theorem toNat_signed_group (n : Int) :
    ((UInt8.ofNat (n % 128).toNat).toNat : Int) = n % 128 := by
  rw [UInt8.toNat_ofNat_of_lt' (by show _ < 256; omega)]
  omega

/-- The writer stops at the first number that one group with a sign can hold. -/
private theorem signedGroups_succ (fuel : Nat) (n : Int) :
    signedGroups (fuel + 1) n =
      let group := UInt8.ofNat (n % 128).toNat
      if -64 ≤ n ∧ n < 64 then [group] else (group ||| 0x80) :: signedGroups fuel (n / 128) := by
  have value := toNat_signed_group n
  simp only [signedGroups, bne, and_sign_eq_zero]
  congr 1
  simp
  omega

private theorem signedGroups_spec (fuel : Nat) : ∀ n : Int, -(64 * 128 ^ fuel) ≤ n →
    n < 64 * 128 ^ fuel →
    Groups (signedGroups (fuel + 1) n) ∧ signedValue (signedGroups (fuel + 1) n) = n ∧
      ∀ k, -(64 * 128 ^ k) ≤ n → n < 64 * 128 ^ k →
        (signedGroups (fuel + 1) n).length ≤ k + 1 := by
  induction fuel with
  | zero =>
      intro n lower upper
      have value := toNat_signed_group n
      rw [signedGroups_succ]
      simp only [Int.pow_zero] at lower upper
      rw [if_pos (by omega)]
      refine ⟨.last (by omega), ?_, fun k _ _ => by simp⟩
      simp only [signedValue]
      split <;> omega
  | succ fuel ih =>
      intro n lower upper
      have value := toNat_signed_group n
      rw [signedGroups_succ]
      by_cases last : -64 ≤ n ∧ n < 64
      · simp only [if_pos last]
        refine ⟨.last (by omega), ?_, fun k _ _ => by simp⟩
        simp only [signedValue]
        split <;> omega
      · have marked := toNat_or_top (UInt8.ofNat (n % 128).toNat)
        rw [Int.pow_succ] at lower upper
        obtain ⟨groups, rest, short⟩ := ih (n / 128) (by omega) (by omega)
        simp only [if_neg last]
        refine ⟨.more (by omega) groups, ?_, ?_⟩
        · rw [signedValue_cons _ groups, rest]
          omega
        · intro k below above
          cases k with
          | zero => omega
          | succ k =>
              rw [Int.pow_succ] at below above
              have := short k (by omega) (by omega)
              simpa using this

private theorem power_le {i j : Nat} (le : i ≤ j) : (2 : Int) ^ i ≤ 2 ^ j := by
  exact_mod_cast Nat.pow_le_pow_right (n := 2) (by decide) le

private theorem groups_eq_power (k : Nat) : (64 : Int) * 128 ^ k = 2 ^ (7 * k + 6) := by
  rw [Int.pow_add, Int.pow_mul, Int.mul_comm]
  rfl

/-- A number that fits in a width is written as a run a reader of that width takes. -/
theorem signed_s64 {width : Nat} (least : 0 < width) (most : width ≤ 64) {v : Int}
    (lower : -2 ^ (width - 1) ≤ v) (upper : v < 2 ^ (width - 1)) :
    Signed width (s64 v) v := by
  have wide : (2 : Int) ^ (width - 1) ≤ 2 ^ 63 := power_le (by omega)
  obtain ⟨groups, value, short⟩ := signedGroups_spec 9 v (by omega) (by omega)
  refine ⟨groups, ?_, ?_, lower, upper⟩
  · have enough := short ((width + 6) / 7 - 1)
    have room : (2 : Int) ^ (width - 1) ≤ 2 ^ (7 * ((width + 6) / 7 - 1) + 6) :=
      power_le (by omega)
    rw [groups_eq_power] at enough
    exact Nat.le_trans (enough (by omega) (by omega)) (by omega)
  · have written : signedValue (s64 v) = v := value
    rw [written]
    exact Int.bmod_eq_of_le (by omega) (by omega)

/-- No run that is read as a number is shorter than the one written for it. -/
theorem length_s64_le {width : Nat} (most : width ≤ 64) {bs : List UInt8} {v : Int}
    (spelled : Signed width bs v) : (s64 v).length ≤ bs.length := by
  have lower := spelled.lower
  have upper := spelled.upper
  have wide : (2 : Int) ^ (width - 1) ≤ 2 ^ 63 := power_le (by omega)
  obtain ⟨-, -, short⟩ := signedGroups_spec 9 v (by omega) (by omega)
  have positive := spelled.groups.length_pos
  by_cases long : 10 ≤ bs.length
  · exact Nat.le_trans (short 9 (by omega) (by omega)) long
  · have bounds := signedValue_bounds spelled.groups
    have narrow : (64 : Int) * 128 ^ (bs.length - 1) ≤ 2 ^ 62 := by
      rw [groups_eq_power]
      exact power_le (by omega)
    have value : signedValue bs = v := by
      rw [← spelled.value, Int.bmod_eq_of_le (by omega) (by omega)]
    rw [value] at bounds
    exact Nat.le_trans (short (bs.length - 1) bounds.1 bounds.2) (by omega)

/-- No run of a number is shorter than what is written for a number at most as
large. -/
theorem length_u32_mono {bs : List UInt8} {n m : UInt32} (spelled : Unsigned bs m) (le : n ≤ m) :
    (u32 n).length ≤ bs.length := by
  have small : n.toNat < 2 ^ 32 := n.toNat_lt
  have positive := spelled.groups.length_pos
  have bound := unsignedValue_lt bs
  rw [spelled.value] at bound
  rw [UInt32.le_iff_toNat_le] at le
  obtain ⟨-, -, short⟩ := unsignedGroups_spec 4 n.toNat (by omega)
  have enough : n.toNat < 128 ^ (bs.length - 1 + 1) := by
    rw [Nat.sub_add_cancel positive]
    exact Nat.lt_of_le_of_lt le bound
  exact Nat.le_trans (short (bs.length - 1) enough) (by omega)

/-- No run that is read as a number is shorter than the one written for it. -/
theorem length_u32_le {bs : List UInt8} {n : UInt32} (spelled : Unsigned bs n) :
    (u32 n).length ≤ bs.length :=
  length_u32_mono spelled (UInt32.le_refl n)

theorem length_u32_lt (n : UInt32) : (u32 n).length < 2 ^ 32 := by
  have most : n ≤ 0xffffffff := UInt32.le_iff_toNat_le.mpr (Nat.le_of_lt_succ n.toNat_lt)
  exact Nat.lt_of_le_of_lt (length_u32_mono (unsigned_u32 0xffffffff) most) (by decide)

/-- A size in front of something smaller takes no more bytes. -/
theorem length_length_le {bs : List UInt8} {n : Nat} {m : UInt32} (spelled : Unsigned bs m)
    (le : n ≤ m.toNat) : (Encode.length n).length ≤ bs.length := by
  have same : (UInt32.ofNat n).toNat = n :=
    UInt32.toNat_ofNat_of_lt' (Nat.lt_of_le_of_lt le m.toNat_lt)
  exact length_u32_mono spelled (by rw [UInt32.le_iff_toNat_le, same]; exact le)

end Encode

end WasmMachine
