/-
# Signed numbers that do not fit

What the readers of signed numbers make of any bytes.  At the front of the bytes there is a
run of groups, or they end before one does.  A run is refused for its length, which is that
of the widest number, or for its integer.

The second test is made of the number that the bits have become, and these are kept in 64
bits.  For fewer bits than that a run of the permitted length cannot have lost any, so every
run of an integer outside the width is refused.  For 64 bits the test is left out: the tenth
group has room for one bit, the others are lost, and a run of ten groups is always read, as
its integer reduced to 64 bits.
-/

import WasmMachine.Proofs.Binary.Leb128

namespace WasmMachine

namespace Leb128

/-- The integers that a signed number of `width` bits can be. -/
def Representable (width : Nat) (v : Int) : Prop :=
  -2 ^ (width - 1) ≤ v ∧ v < 2 ^ (width - 1)

instance (width : Nat) (v : Int) : Decidable (Representable width v) :=
  inferInstanceAs (Decidable (_ ∧ _))

variable {bs : List UInt8}

/-- The last byte of a run ends it, and all others say that it goes on. -/
theorem Groups.exists_concat (groups : Groups bs) :
    ∃ front last, bs = front ++ [last] ∧ (∀ b ∈ front, 128 ≤ b.toNat) ∧ last.toNat < 128 := by
  induction groups with
  | @last b low => exact ⟨[], b, rfl, List.forall_mem_nil _, low⟩
  | @more b bs high _ ih =>
      obtain ⟨front, last, rfl, continues, low⟩ := ih
      exact ⟨b :: front, last, rfl, List.forall_mem_cons.mpr ⟨high, continues⟩, low⟩

/-- The last group has the weight of its place, and a sign. -/
theorem signedValue_concat (front : List UInt8) (last : UInt8) :
    signedValue (front ++ [last]) =
      unsignedValue front + 128 ^ front.length * signedValue [last] := by
  induction front with
  | nil => simp [unsignedValue]
  | cons b front ih =>
      have unfolded : signedValue (b :: (front ++ [last])) =
          (b.toNat % 128 : Nat) + 128 * signedValue (front ++ [last]) := by
        cases front <;> rfl
      rw [List.cons_append, unfolded, ih, unsignedValue, List.length_cons, Int.pow_succ']
      push_cast
      rw [Int.mul_add, ← Int.mul_assoc, Int.add_assoc]

/-- A run of fewer than ten groups stands for an integer of 64 bits. One of ten groups does
when its last group is nothing but a sign. -/
theorem representable_iff (groups : Groups bs) (short : bs.length ≤ 10) :
    Representable 64 (signedValue bs) ↔
      bs.length < 10 ∨ bs.getLast? = some 0x00 ∨ bs.getLast? = some 0x7f := by
  obtain ⟨front, last, rfl, -, low⟩ := groups.exists_concat
  rw [List.length_append, List.length_singleton] at *
  rw [List.getLast?_concat, signedValue_concat, Option.some.injEq, Option.some.injEq,
    ← UInt8.toNat_inj, ← UInt8.toNat_inj]
  have below := unsignedValue_lt front
  have sign : signedValue [last] = if last.toNat < 64 then (last.toNat : Int)
      else last.toNat - 128 := by
    simp only [signedValue, Nat.mod_eq_of_lt low]
  unfold Representable
  by_cases full : front.length = 9
  · rw [full] at below ⊢
    rw [sign]
    split <;> simp <;> omega
  · have bounds := signedValue_bounds groups
    have fewer : (128 : Int) ^ front.length ≤ 128 ^ 8 := by
      exact_mod_cast Nat.pow_le_pow_right (n := 128) (by decide) (by omega : front.length ≤ 8)
    rw [signedValue_concat, List.length_append, List.length_singleton, Nat.add_sub_cancel]
      at bounds
    exact iff_of_true (by omega) (.inl (by omega))

end Leb128

namespace Decoder

open Leb128

variable {bs : List UInt8}

/-! ## Bytes that never end a run -/

/-- Groups that all go on use up the budget, or the input ends before. -/
private theorem signedGroups_of_continues (budget : Nat) (continues : ∀ b ∈ bs, 128 ≤ b.toNat) :
    ∀ (shift : Nat) (result : UInt64) (position : Nat) (rest : List UInt8),
      bs.length = budget ∨ (bs.length < budget ∧ rest = []) →
      signedGroups budget shift result ⟨position, bs ++ rest⟩ =
        .error (if bs.length = budget then .atPosition (position + bs.length) .overflow
          else .endOfInput) ⟨position + bs.length, rest⟩ := by
  induction bs generalizing budget with
  | nil =>
      rintro shift result position rest (rfl | ⟨left, rfl⟩)
      · rfl
      · obtain ⟨budget, rfl⟩ := Nat.exists_eq_succ_of_ne_zero (Nat.ne_of_gt left)
        rfl
  | cons b bs ih =>
      intro shift result position rest enough
      obtain ⟨high, continues⟩ := List.forall_mem_cons.mp continues
      rw [List.length_cons] at enough ⊢
      obtain ⟨budget, rfl⟩ : ∃ k, budget = k + 1 := Nat.exists_eq_succ_of_ne_zero (by omega)
      have one : byte ⟨position, b :: (bs ++ rest)⟩ = .ok b ⟨position + 1, bs ++ rest⟩ := rfl
      rw [signedGroups_succ, List.cons_append]
      simp only [bind, EStateM.bind, one, if_pos high]
      rw [ih budget continues _ _ _ _
        (enough.imp Nat.succ.inj (And.imp_left Nat.lt_of_succ_lt_succ))]
      simp only [Nat.add_right_cancel_iff, Nat.add_right_comm, Nat.add_assoc]

/-- The reader of signed numbers of `width` bits says that the number does not fit. -/
def Overflows (width : Nat) (r : Reader) : Prop :=
  ∃ r', signed width r = .error (.atPosition r'.position .overflow) r'

theorem not_overflows_of_ok {width : Nat} {r r' : Reader} {v : Int}
    (ok : signed width r = .ok v r') : ¬ Overflows width r := by
  rintro ⟨_, refused⟩
  cases ok.symm.trans refused

theorem signed_of_continues (width : Nat) (continues : ∀ b ∈ bs, 128 ≤ b.toNat)
    (position : Nat) (rest : List UInt8)
    (enough : bs.length = (width + 6) / 7 ∨ (bs.length < (width + 6) / 7 ∧ rest = [])) :
    signed width ⟨position, bs ++ rest⟩ =
      .error (if bs.length = (width + 6) / 7 then .atPosition (position + bs.length) .overflow
        else .endOfInput) ⟨position + bs.length, rest⟩ := by
  rw [signed_eq]
  simp only [bind, EStateM.bind, signedGroups_of_continues _ continues 0 0 position rest enough]

/-- As many groups as are permitted, none of which ends the run, whatever comes next. -/
theorem overflows_of_continues {width : Nat} {front : List UInt8}
    (continues : ∀ b ∈ front, 128 ≤ b.toNat) (long : (width + 6) / 7 ≤ front.length)
    (position : Nat) (rest : List UInt8) : Overflows width ⟨position, front ++ rest⟩ := by
  have length : (front.take ((width + 6) / 7)).length = (width + 6) / 7 := by
    rw [List.length_take]
    omega
  have split : front ++ rest = front.take ((width + 6) / 7) ++
      (front.drop ((width + 6) / 7) ++ rest) := by
    rw [← List.append_assoc, List.take_append_drop]
  have refused := signed_of_continues width
    (fun b member => continues b (List.mem_of_mem_take member)) position
    (front.drop ((width + 6) / 7) ++ rest) (.inl length)
  rw [← split, if_pos length] at refused
  exact ⟨⟨_, _⟩, refused⟩

/-! ## Runs of groups -/

/-- A run of a permitted length is read as what 64 bits leave of its integer, unless a
narrower width refuses that. -/
theorem signed_of_groups {width : Nat} (most : width ≤ 64) (groups : Groups bs)
    (short : bs.length ≤ (width + 6) / 7) (position : Nat) (rest : List UInt8) :
    signed width ⟨position, bs ++ rest⟩ =
      if width < 64 ∧ ¬ Representable width ((signedValue bs).bmod (2 ^ 64)) then
        .error (.atPosition (position + bs.length) .overflow) ⟨position + bs.length, rest⟩
      else .ok ((signedValue bs).bmod (2 ^ 64)) ⟨position + bs.length, rest⟩ := by
  have bits := Reads.signedBits (by omega) groups short position rest
  rw [signed_eq]
  simp only [bind, EStateM.bind, bits, toInt_ofInt]
  unfold Representable
  split
  · rfl
  · rfl

/-- A run that is longer than permitted is refused before its end. -/
theorem overflows_of_long {width : Nat} (groups : Groups bs) (long : (width + 6) / 7 < bs.length)
    (position : Nat) (rest : List UInt8) : Overflows width ⟨position, bs ++ rest⟩ := by
  obtain ⟨front, last, rfl, continues, -⟩ := groups.exists_concat
  rw [List.length_append, List.length_singleton] at long
  rw [List.append_assoc]
  exact overflows_of_continues continues (by omega) position ([last] ++ rest)

/-- Nine groups have room in 64 bits. -/
theorem bmod_signedValue (groups : Groups bs) (short : bs.length ≤ 9) :
    (signedValue bs).bmod (2 ^ 64) = signedValue bs := by
  have bounds := signedValue_bounds groups
  have narrow : (128 : Int) ^ (bs.length - 1) ≤ 128 ^ 8 := by
    exact_mod_cast Nat.pow_le_pow_right (n := 128) (by decide) (by omega : bs.length - 1 ≤ 8)
  exact Int.bmod_eq_of_le (by omega) (by omega)

/-- What 64 bits leave of an integer is the integer itself if that is one of 64 bits. -/
theorem bmod_eq_self_iff (v : Int) : v.bmod (2 ^ 64) = v ↔ Representable 64 v := by
  constructor
  · intro same
    have lower := Int.le_bmod (x := v) (m := 2 ^ 64) (by decide)
    have upper := Int.bmod_lt (x := v) (m := 2 ^ 64) (by decide)
    rw [same] at lower upper
    exact ⟨lower, upper⟩
  · rintro ⟨lower, upper⟩
    exact Int.bmod_eq_of_le (by omega) (by omega)

/-- For 64 bits a run is read unless it is too long. -/
theorem overflows_iff_long (groups : Groups bs) (position : Nat) (rest : List UInt8) :
    Overflows 64 ⟨position, bs ++ rest⟩ ↔ 10 < bs.length := by
  constructor
  · intro refused
    refine Nat.not_le.mp fun short => ?_
    have read : signed 64 ⟨position, bs ++ rest⟩ = _ :=
      signed_of_groups (by decide) groups short position rest
    exact not_overflows_of_ok read refused
  · exact fun long => overflows_of_long groups long position rest

/-- A width whose groups have room in 64 bits refuses exactly what does not fit. -/
theorem overflows_iff {width : Nat} (few : width ≤ 57) (groups : Groups bs) (position : Nat)
    (rest : List UInt8) :
    Overflows width ⟨position, bs ++ rest⟩ ↔
      ¬ (bs.length ≤ (width + 6) / 7 ∧ Representable width (signedValue bs)) := by
  by_cases short : bs.length ≤ (width + 6) / 7
  · have read := signed_of_groups (by omega) groups short position rest
    rw [bmod_signedValue groups (by omega)] at read
    by_cases fits : Representable width (signedValue bs)
    · rw [if_neg fun unfit => unfit.2 fits] at read
      exact iff_of_false (not_overflows_of_ok read) (not_not_intro ⟨short, fits⟩)
    · rw [if_pos ⟨by omega, fits⟩] at read
      exact iff_of_true ⟨⟨_, _⟩, read⟩ fun both => fits both.2
  · exact iff_of_true (overflows_of_long groups (by omega) position rest) fun both => short both.1

/-! ## All bytes -/

/-- What the reader of signed 64-bit numbers makes of the bytes in front of it, and what
narrower readers make of them. -/
structure ReadsSigned (r : Reader) : Prop where
  /-- Exactly the runs of at most ten groups are read, as what 64 bits leave of them. -/
  read : ∀ (v : Int) (r' : Reader), s64 r = .ok v r' ↔
    ∃ bs, r.rest = bs ++ r'.rest ∧ r'.position = r.position + bs.length ∧ Groups bs ∧
      bs.length ≤ 10 ∧ v = (signedValue bs).bmod (2 ^ 64)
  /-- That is the integer of the run exactly when it is one of 64 bits; of the runs of ten
  groups those are two in every 128. -/
  faithful : ∀ bs rest, r.rest = bs ++ rest → Groups bs → bs.length ≤ 10 →
    ((∃ r', s64 r = .ok (signedValue bs) r') ↔ Representable 64 (signedValue bs)) ∧
      (Representable 64 (signedValue bs) ↔
        bs.length < 10 ∨ bs.getLast? = some 0x00 ∨ bs.getLast? = some 0x7f)
  /-- A run is refused for its length and never for its integer. -/
  refused : ∀ bs rest, r.rest = bs ++ rest → Groups bs → (Overflows 64 r ↔ 10 < bs.length)
  /-- Bytes without a run are refused at the tenth, or where they end. -/
  endless : (∀ b ∈ r.rest, 128 ≤ b.toNat) →
    if r.rest.length < 10 then s64 r = .error .endOfInput ⟨r.position + r.rest.length, []⟩
    else Overflows 64 r
  /-- Readers of fewer bits refuse every run of an integer that is not one of their width. -/
  narrow : ∀ width bs rest, width ≤ 57 → r.rest = bs ++ rest → Groups bs →
    (Overflows width r ↔
      ¬ (bs.length ≤ (width + 6) / 7 ∧ Representable width (signedValue bs)))

theorem s64_eq_ok_iff (r r' : Reader) (v : Int) :
    s64 r = .ok v r' ↔
      ∃ bs, r.rest = bs ++ r'.rest ∧ r'.position = r.position + bs.length ∧ Groups bs ∧
        bs.length ≤ 10 ∧ v = (signedValue bs).bmod (2 ^ 64) := by
  constructor
  · intro ok
    obtain ⟨bs, split, moved, spelled⟩ := Yields.signed (by decide) r v r' ok
    exact ⟨bs, split, moved, spelled.groups, spelled.short, spelled.value.symm⟩
  · obtain ⟨position, rest⟩ := r
    obtain ⟨position', rest'⟩ := r'
    rintro ⟨bs, split, moved, groups, short, rfl⟩
    obtain rfl : rest = bs ++ rest' := split
    obtain rfl : position' = position + bs.length := moved
    exact signed_of_groups (by decide) groups short position rest'

/-- Signed numbers of 64 bits are cut to their width and never refused for it. -/
theorem readsSigned (r : Reader) : ReadsSigned r where
  read v r' := s64_eq_ok_iff r r' v
  faithful := by
    obtain ⟨position, bytes⟩ := r
    rintro bs rest rfl groups short
    refine ⟨?_, representable_iff groups short⟩
    have read : signed 64 ⟨position, bs ++ rest⟩ = _ :=
      signed_of_groups (by decide) groups short position rest
    rw [← bmod_eq_self_iff]
    constructor
    · rintro ⟨r', ok⟩
      injection read.symm.trans ok
    · intro same
      exact ⟨_, read.trans (by rw [same]; rfl)⟩
  refused := by
    obtain ⟨position, bytes⟩ := r
    rintro bs rest rfl groups
    exact overflows_iff_long groups position rest
  endless := by
    obtain ⟨position, bytes⟩ := r
    intro continues
    split
    · next few =>
        have ends := signed_of_continues 64 continues position [] (.inr ⟨few, rfl⟩)
        rw [List.append_nil, if_neg (Nat.ne_of_lt few)] at ends
        exact ends
    · next many =>
        have refused : Overflows 64 ⟨position, bytes ++ []⟩ :=
          overflows_of_continues continues (Nat.not_lt.mp many) position []
        rwa [List.append_nil] at refused
  narrow := by
    obtain ⟨position, bytes⟩ := r
    rintro width bs rest few rfl groups
    exact overflows_iff few groups position rest

/-- Nine empty groups and the sixty-fourth bit, which stand for `2 ^ 63`. -/
def nextPower : List UInt8 := [0x80, 0x80, 0x80, 0x80, 0x80, 0x80, 0x80, 0x80, 0x80, 0x01]

/-- The least integer above those of 64 bits is read as the least of them. -/
theorem s64_nextPower :
    Groups nextPower ∧ signedValue nextPower = 2 ^ 63 ∧ ¬ Representable 64 (2 ^ 63) ∧
      s64 (.ofBytes nextPower) = .ok (-2 ^ 63) ⟨10, []⟩ := by
  have groups : Groups nextPower := by
    iterate 9 refine .more (by decide) ?_
    exact .last (by decide)
  exact ⟨groups, by decide, by decide, rfl⟩

end Decoder

end WasmMachine
