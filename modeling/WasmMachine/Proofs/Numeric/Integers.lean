/-
# Integer arithmetic is exact

What the integer instructions compute, in numbers.  A pattern of `w` bits is read without a
sign (`toNat`) or with one (`toInt`), and an instruction on two integers has the second of
them on top of the stack.

Divisions trap for a zero divisor, and the signed one also for the one quotient that does not
fit; there are no other traps.  Shifts and rotations take their count modulo `w`, and what
they do to the number or to its bits is said without reference to words.
-/

import Mathlib.Data.Finset.Card
import Mathlib.Data.Finset.Range
import WasmMachine.Proofs.Numeric.Patterns

namespace WasmMachine.Numeric

variable {k : Nat} {a b : BitVec k}

/-! ## Division -/

/-- The two operands whose quotient does not fit: the least integer and minus one. -/
def Overflowing (a b : BitVec k) : Prop := a.toInt = -2 ^ (k - 1) ∧ b.toInt = -1

instance (a b : BitVec k) : Decidable (Overflowing a b) := inferInstanceAs (Decidable (_ ∧ _))

theorem overflowing_iff (some_bits : 0 < k) (a b : BitVec k) :
    a = .intMin k ∧ b = -1#k ↔ Overflowing a b := by
  have least : (BitVec.intMin k).toInt = -2 ^ (k - 1) := by
    rw [BitVec.toInt_intMin, Nat.mod_eq_of_lt (Nat.pow_lt_pow_right (by decide) (by omega))]
    norm_cast
  have minus : (-1#k).toInt = -1 := by
    rw [BitVec.neg_one_eq_allOnes, BitVec.toInt_allOnes, if_pos some_bits]
  rw [Overflowing, ← least, ← minus, BitVec.toInt_inj, BitVec.toInt_inj]

namespace IntBinary

theorem divS_eq_error_iff (some_bits : 0 < k) (t : Trap) :
    divS.onBits a b = .error t ↔
      b = 0#k ∧ t = .divideByZero ∨ Overflowing a b ∧ t = .integerOverflow := by
  by_cases zero : b = 0#k
  · have run : divS.onBits a b = .error .divideByZero := if_pos zero
    have fits : ¬ Overflowing a b := by
      rintro ⟨-, minus⟩
      rw [zero, BitVec.toInt_zero] at minus
      cases minus
    rw [run]
    constructor
    · rintro ⟨⟩
      exact .inl ⟨zero, rfl⟩
    · rintro (⟨-, rfl⟩ | ⟨overflowing, -⟩)
      · rfl
      · exact absurd overflowing fits
  · have run : divS.onBits a b =
        if Overflowing a b then .error .integerOverflow else .ok (a.sdiv b) := by
      simp only [onBits, if_neg zero, overflowing_iff some_bits]
    rw [run]
    split
    · next overflowing =>
        constructor
        · rintro ⟨⟩
          exact .inr ⟨overflowing, rfl⟩
        · rintro (⟨again, -⟩ | ⟨-, rfl⟩)
          · exact absurd again zero
          · rfl
    · next fits =>
        refine iff_of_false (fun same => by cases same) ?_
        rintro (⟨again, -⟩ | ⟨again, -⟩)
        · exact zero again
        · exact fits again

/-- Where no quotient is asked for that does not fit, a zero divisor is all that traps. -/
theorem guarded_eq_error_iff {result : BitVec k} (t : Trap) :
    (if b = 0#k then .error .divideByZero else .ok result : Except Trap (BitVec k)) = .error t ↔
      b = 0#k ∧ t = .divideByZero := by
  split
  · next zero =>
      constructor
      · rintro ⟨⟩
        exact ⟨zero, rfl⟩
      · rintro ⟨-, rfl⟩
        rfl
  · next divisor => exact iff_of_false (fun same => by cases same) fun same => divisor same.1

theorem divS_eq_ok (some_bits : 0 < k) (divisor : b ≠ 0#k) (fits : ¬ Overflowing a b) :
    ∃ r, divS.onBits a b = .ok r ∧ r.toInt = a.toInt.tdiv b.toInt := by
  rw [← overflowing_iff some_bits] at fits
  refine ⟨a.sdiv b, ?_, BitVec.toInt_sdiv_of_ne_or_ne a b (not_and_or.mp fits)⟩
  simp only [onBits, if_neg divisor, if_neg fits]

/-- The signed remainder is smaller than the divisor, and has the sign of the dividend. -/
theorem remS_eq_ok (divisor : b ≠ 0#k) :
    ∃ r, remS.onBits a b = .ok r ∧
      (∃ q : Int, a.toInt = q * b.toInt + r.toInt) ∧ r.toInt.natAbs < b.toInt.natAbs ∧
      (r.toInt = 0 ∨ r.toInt.sign = a.toInt.sign) := by
  have some : b.toInt ≠ 0 := by rwa [← BitVec.toInt_zero (w := k), Ne, BitVec.toInt_inj]
  refine ⟨a.srem b, by simp only [onBits, if_neg divisor], ?_⟩
  rw [BitVec.toInt_srem]
  refine ⟨⟨a.toInt.tdiv b.toInt, ?_⟩, ?_, ?_⟩
  · rw [Int.mul_comm, Int.mul_tdiv_add_tmod]
  · rw [Int.natAbs_tmod]
    exact Nat.mod_lt _ (Int.natAbs_pos.mpr some)
  · rw [Int.sign_tmod]
    split
    · next divides => exact .inl (Int.tmod_eq_zero_of_dvd divides)
    · exact .inr rfl

end IntBinary

/-! ## Shifts and rotations -/

theorem toInt_sshiftRight_eq_fdiv (n : Nat) : (a.sshiftRight n).toInt = a.toInt.fdiv (2 ^ n) := by
  rw [BitVec.toInt_sshiftRight, Int.shiftRight_eq_div_pow,
    Int.fdiv_eq_ediv_of_nonneg _ (Int.pow_nonneg (by decide))]
  norm_cast

/-- A rotation takes each bit to a place further up, around the end. -/
theorem getLsbD_rotateLeft_add (n : Nat) {j : Nat} (inside : j < k) :
    (a.rotateLeft n).getLsbD ((j + n) % k) = a.getLsbD j := by
  have few : n % k < k := Nat.mod_lt _ (Nat.lt_of_le_of_lt (Nat.zero_le j) inside)
  rw [← Nat.add_mod_mod, BitVec.getLsbD_rotateLeft]
  by_cases below : j + n % k < k
  · have high : ¬ j + n % k < n % k := by omega
    rw [Nat.mod_eq_of_lt below, decide_eq_false high, decide_eq_true below,
      Nat.add_sub_cancel_right]
    rfl
  · have around : (j + n % k) % k = j + n % k - k := by
      rw [Nat.mod_eq_sub_mod (Nat.not_lt.mp below), Nat.mod_eq_of_lt (by omega)]
    have low : j + n % k - k < n % k := by omega
    have back : k - n % k + (j + n % k - k) = j := by omega
    rw [around, decide_eq_true low, back]
    rfl

/-- A rotation by what is missing to the full circle takes each bit back. -/
theorem rotateLeft_rotateLeft (n : Nat) : (a.rotateLeft n).rotateLeft (k - n % k) = a := by
  apply BitVec.eq_of_getLsbD_eq
  intro j inside
  have positive : 0 < k := Nat.lt_of_le_of_lt (Nat.zero_le j) inside
  have few : n % k < k := Nat.mod_lt _ positive
  have circle : j + n + (k - n % k) = j + k * (n / k + 1) := by
    have parts := Nat.div_add_mod n k
    rw [Nat.mul_succ]
    omega
  have back : ((j + n) % k + (k - n % k)) % k = j := by
    rw [Nat.mod_add_mod, circle, Nat.add_mul_mod_self_left, Nat.mod_eq_of_lt inside]
  calc ((a.rotateLeft n).rotateLeft (k - n % k)).getLsbD j
      = ((a.rotateLeft n).rotateLeft (k - n % k)).getLsbD (((j + n) % k + (k - n % k)) % k) := by
        rw [back]
    _ = (a.rotateLeft n).getLsbD ((j + n) % k) :=
        getLsbD_rotateLeft_add _ (Nat.mod_lt _ positive)
    _ = a.getLsbD j := getLsbD_rotateLeft_add n inside

/-! ## Counting bits -/

/-- The zeros above the highest bit that is set. -/
theorem leadingZeros_spec (a : BitVec k) :
    (a = 0#k → leadingZeros k a.toNat = k) ∧
      (∀ j, j < leadingZeros k a.toNat → a.getLsbD (k - 1 - j) = false) ∧
      (a ≠ 0#k →
        leadingZeros k a.toNat < k ∧ a.getLsbD (k - 1 - leadingZeros k a.toNat) = true) := by
  by_cases zero : a = 0#k
  · subst zero
    exact ⟨fun _ => rfl, fun j _ => BitVec.getLsbD_zero, fun some => absurd rfl some⟩
  · have some : a.toNat ≠ 0 := fun none => zero (BitVec.eq_of_toNat_eq none)
    have small : a.toNat.log2 < k := (Nat.log2_lt some).mpr a.isLt
    rw [leadingZeros, if_neg some]
    refine ⟨fun again => absurd again zero, fun j above => ?_, fun _ => ⟨by omega, ?_⟩⟩
    · have below : a.toNat.log2 + 1 ≤ k - 1 - j := by omega
      rw [← BitVec.testBit_toNat]
      exact Nat.testBit_lt_two_pow
        (Nat.lt_of_lt_of_le Nat.lt_log2_self (Nat.pow_le_pow_right (by decide) below))
    · have top : k - 1 - (k - 1 - a.toNat.log2) = a.toNat.log2 := by omega
      rw [top, ← BitVec.testBit_toNat, Nat.testBit_log2 some]

theorem leadingZeros_le (a : BitVec k) : leadingZeros k a.toNat ≤ k := by
  unfold leadingZeros
  split <;> omega

/-- The zeros below the lowest bit that is set. -/
theorem trailingZeros_spec (a : BitVec k) :
    (a = 0#k → trailingZeros k a.toNat = k) ∧
      (∀ j, j < trailingZeros k a.toNat → a.getLsbD j = false) ∧
      (a ≠ 0#k →
        trailingZeros k a.toNat < k ∧ a.getLsbD (trailingZeros k a.toNat) = true) := by
  unfold trailingZeros
  cases found : (List.range k).find? a.toNat.testBit with
  | none =>
      have nothing (j : Nat) (inside : j < k) : a.getLsbD j = false := by
        rw [← BitVec.testBit_toNat, ← Bool.not_eq_true']
        exact List.find?_range_eq_none.mp found j inside
      have zero : a = 0#k := BitVec.eq_of_getLsbD_eq fun j inside => by
        rw [nothing j inside, BitVec.getLsbD_zero]
      exact ⟨fun _ => rfl, nothing, fun some => absurd zero some⟩
  | some place =>
      obtain ⟨set, inside, before⟩ := List.find?_range_eq_some.mp found
      rw [BitVec.testBit_toNat] at set
      have some : a ≠ 0#k := by
        rintro rfl
        rw [BitVec.getLsbD_zero] at set
        cases set
      refine ⟨fun zero => absurd zero some, fun j below => ?_, fun _ =>
        ⟨List.mem_range.mp inside, set⟩⟩
      rw [← BitVec.testBit_toNat, ← Bool.not_eq_true']
      exact before j below

theorem trailingZeros_le (a : BitVec k) : trailingZeros k a.toNat ≤ k := by
  obtain ⟨none, -, first⟩ := trailingZeros_spec a
  by_cases zero : a = 0#k
  · exact Nat.le_of_eq (none zero)
  · exact Nat.le_of_lt (first zero).1

/-- The places where a bit is set. -/
theorem population_eq_card (a : BitVec k) :
    population k a.toNat = {j ∈ Finset.range k | a.getLsbD j = true}.card := by
  have bits : a.toNat.testBit = fun j => a.getLsbD j := funext fun j => BitVec.testBit_toNat a
  simp only [population, bits, List.countP_eq_length_filter, Finset.card_def, Finset.filter_val,
    Finset.range_val, Multiset.range, Multiset.filter_coe, Multiset.coe_card, Bool.decide_eq_true]

theorem population_le (n : Nat) : population k n ≤ k := by
  rw [population]
  exact (List.countP_le_length).trans (Nat.le_of_eq List.length_range)

/-! ## All of it -/

/-- How the instructions of a width end that never trap and use every bit of both operands, on
`a` and above it `b`. -/
structure SumsExact (w : Width) (a b : BitVec w.bits) : Prop where
  add : ∀ i : Instruction, i.opcode = IntBinary.add.opcode w →
    ∃ r, i.Leaves (w.pair a b) (w.integer r) ∧ r.toNat = (a.toNat + b.toNat) % 2 ^ w.bits
  sub : ∀ i : Instruction, i.opcode = IntBinary.sub.opcode w →
    ∃ r, i.Leaves (w.pair a b) (w.integer r) ∧ r.toInt = (a.toInt - b.toInt).bmod (2 ^ w.bits)
  mul : ∀ i : Instruction, i.opcode = IntBinary.mul.opcode w →
    ∃ r, i.Leaves (w.pair a b) (w.integer r) ∧ r.toNat = a.toNat * b.toNat % 2 ^ w.bits
  and : ∀ i : Instruction, i.opcode = IntBinary.and.opcode w →
    ∃ r, i.Leaves (w.pair a b) (w.integer r) ∧ ∀ j, r.getLsbD j = (a.getLsbD j && b.getLsbD j)
  or : ∀ i : Instruction, i.opcode = IntBinary.or.opcode w →
    ∃ r, i.Leaves (w.pair a b) (w.integer r) ∧ ∀ j, r.getLsbD j = (a.getLsbD j || b.getLsbD j)
  xor : ∀ i : Instruction, i.opcode = IntBinary.xor.opcode w →
    ∃ r, i.Leaves (w.pair a b) (w.integer r) ∧ ∀ j, r.getLsbD j = (a.getLsbD j ^^ b.getLsbD j)

/-- How the division instructions of a width end, on `a` and above it `b`. -/
structure DivisionExact (w : Width) (a b : BitVec w.bits) : Prop where
  /-- The quotient goes toward zero. -/
  divS : ∀ i : Instruction, i.opcode = IntBinary.divS.opcode w →
    (∀ t, i.TrapsOn (w.pair a b) t ↔
      b = 0#_ ∧ t = .divideByZero ∨ Overflowing a b ∧ t = .integerOverflow) ∧
    (b ≠ 0#_ → ¬ Overflowing a b →
      ∃ r, i.Leaves (w.pair a b) (w.integer r) ∧ r.toInt = a.toInt.tdiv b.toInt)
  /-- The remainder is smaller than the divisor and has the sign of the dividend. -/
  remS : ∀ i : Instruction, i.opcode = IntBinary.remS.opcode w →
    (∀ t, i.TrapsOn (w.pair a b) t ↔ b = 0#_ ∧ t = .divideByZero) ∧
    (b ≠ 0#_ → ∃ r, i.Leaves (w.pair a b) (w.integer r) ∧
      (∃ q : Int, a.toInt = q * b.toInt + r.toInt) ∧ r.toInt.natAbs < b.toInt.natAbs ∧
      (r.toInt = 0 ∨ r.toInt.sign = a.toInt.sign) ∧ (Overflowing a b → r = 0#_))
  divU : ∀ i : Instruction, i.opcode = IntBinary.divU.opcode w →
    (∀ t, i.TrapsOn (w.pair a b) t ↔ b = 0#_ ∧ t = .divideByZero) ∧
    (b ≠ 0#_ → ∃ r, i.Leaves (w.pair a b) (w.integer r) ∧ r.toNat = a.toNat / b.toNat)
  remU : ∀ i : Instruction, i.opcode = IntBinary.remU.opcode w →
    (∀ t, i.TrapsOn (w.pair a b) t ↔ b = 0#_ ∧ t = .divideByZero) ∧
    (b ≠ 0#_ → ∃ r, i.Leaves (w.pair a b) (w.integer r) ∧ r.toNat = a.toNat % b.toNat)

/-- How shifts and rotations of a width end, on `a` and above it the count `n`. -/
structure ShiftsExact (w : Width) (a n : BitVec w.bits) : Prop where
  shl : ∀ i : Instruction, i.opcode = IntBinary.shl.opcode w →
    ∃ r, i.Leaves (w.pair a n) (w.integer r) ∧
      r.toNat = a.toNat * 2 ^ (n.toNat % w.bits) % 2 ^ w.bits
  shrU : ∀ i : Instruction, i.opcode = IntBinary.shrU.opcode w →
    ∃ r, i.Leaves (w.pair a n) (w.integer r) ∧ r.toNat = a.toNat / 2 ^ (n.toNat % w.bits)
  /-- A division that goes down, also for negative numbers. -/
  shrS : ∀ i : Instruction, i.opcode = IntBinary.shrS.opcode w →
    ∃ r, i.Leaves (w.pair a n) (w.integer r) ∧
      r.toInt = a.toInt.fdiv (2 ^ (n.toNat % w.bits))
  rotl : ∀ i : Instruction, i.opcode = IntBinary.rotl.opcode w →
    ∃ r, i.Leaves (w.pair a n) (w.integer r) ∧
      ∀ j, j < w.bits → a.getLsbD j = r.getLsbD ((j + n.toNat) % w.bits)
  /-- Rotated to the left and then to the right, an integer is what it was. -/
  rotr : ∀ i i' : Instruction, i.opcode = IntBinary.rotl.opcode w →
    i'.opcode = IntBinary.rotr.opcode w →
    ∃ r, i.Leaves (w.pair a n) (w.integer r) ∧ i'.Leaves (w.pair r n) (w.integer a)

/-- The number of low bits that an extension starts from. -/
def IntUnary.part? : IntUnary → Option Nat
  | .extend8 => some 8
  | .extend16 => some 16
  | .extend32 => some 32
  | _ => none

/-- What the instructions on one integer of a width make of `a`. -/
structure UnaryExact (w : Width) (a : BitVec w.bits) : Prop where
  clz : ∀ i : Instruction, IntUnary.clz.opcode? w = some i.opcode →
    ∃ r, i.Leaves [w.integer a] (w.integer r) ∧ (a = 0#_ → r.toNat = w.bits) ∧
      (∀ j, j < r.toNat → a.getLsbD (w.bits - 1 - j) = false) ∧
      (a ≠ 0#_ → r.toNat < w.bits ∧ a.getLsbD (w.bits - 1 - r.toNat) = true)
  ctz : ∀ i : Instruction, IntUnary.ctz.opcode? w = some i.opcode →
    ∃ r, i.Leaves [w.integer a] (w.integer r) ∧ (a = 0#_ → r.toNat = w.bits) ∧
      (∀ j, j < r.toNat → a.getLsbD j = false) ∧
      (a ≠ 0#_ → r.toNat < w.bits ∧ a.getLsbD r.toNat = true)
  popcnt : ∀ i : Instruction, IntUnary.popcnt.opcode? w = some i.opcode →
    ∃ r, i.Leaves [w.integer a] (w.integer r) ∧
      r.toNat = {j ∈ Finset.range w.bits | a.getLsbD j = true}.card
  /-- The low bits are read with their sign. -/
  extend : ∀ (op : IntUnary) (n : Nat) (i : Instruction), op.part? = some n →
    op.opcode? w = some i.opcode →
    ∃ r, i.Leaves [w.integer a] (w.integer r) ∧ r.toInt = a.toInt.bmod (2 ^ n)

/-- The integer instructions of a width do what their names say. -/
structure IntegersExact (w : Width) : Prop where
  sums : ∀ a b, SumsExact w a b
  division : ∀ a b, DivisionExact w a b
  shifts : ∀ a n, ShiftsExact w a n
  unary : ∀ a, UnaryExact w a

theorem sumsExact (w : Width) (a b : BitVec w.bits) : SumsExact w a b where
  add _ known := ⟨_, IntBinary.leaves known rfl, BitVec.toNat_add a b⟩
  sub _ known := ⟨_, IntBinary.leaves known rfl, BitVec.toInt_sub⟩
  mul _ known := ⟨_, IntBinary.leaves known rfl, BitVec.toNat_mul a b⟩
  and _ known := ⟨_, IntBinary.leaves known rfl, fun _ => BitVec.getLsbD_and⟩
  or _ known := ⟨_, IntBinary.leaves known rfl, fun _ => BitVec.getLsbD_or⟩
  xor _ known := ⟨_, IntBinary.leaves known rfl, fun _ => BitVec.getLsbD_xor⟩

theorem divisionExact (w : Width) (a b : BitVec w.bits) : DivisionExact w a b where
  divS i known := by
    refine ⟨fun t => ?_, fun divisor fits => ?_⟩
    · rw [IntBinary.trapsOn_iff known, IntBinary.divS_eq_error_iff w.bits_pos]
    · obtain ⟨r, run, value⟩ := IntBinary.divS_eq_ok w.bits_pos divisor fits
      exact ⟨r, IntBinary.leaves known run, value⟩
  remS i known := by
    refine ⟨fun t => ?_, fun divisor => ?_⟩
    · exact (IntBinary.trapsOn_iff known t).trans (IntBinary.guarded_eq_error_iff t)
    · obtain ⟨r, run, whole, smaller, sign⟩ := IntBinary.remS_eq_ok divisor
      refine ⟨r, IntBinary.leaves known run, whole, smaller, sign, fun overflowing => ?_⟩
      rw [overflowing.2] at smaller
      exact BitVec.eq_of_toInt_eq (by rw [BitVec.toInt_zero]; omega)
  divU i known := by
    refine ⟨fun t => ?_, fun divisor => ?_⟩
    · exact (IntBinary.trapsOn_iff known t).trans (IntBinary.guarded_eq_error_iff t)
    · exact ⟨a / b, IntBinary.leaves known (if_neg divisor), BitVec.toNat_udiv⟩
  remU i known := by
    refine ⟨fun t => ?_, fun divisor => ?_⟩
    · exact (IntBinary.trapsOn_iff known t).trans (IntBinary.guarded_eq_error_iff t)
    · exact ⟨a % b, IntBinary.leaves known (if_neg divisor), BitVec.toNat_umod⟩

theorem shiftsExact (w : Width) (a n : BitVec w.bits) : ShiftsExact w a n where
  shl i known := by
    refine ⟨_, IntBinary.leaves known rfl, ?_⟩
    rw [BitVec.toNat_shiftLeft, Nat.shiftLeft_eq]
  shrU i known := by
    refine ⟨_, IntBinary.leaves known rfl, ?_⟩
    rw [BitVec.toNat_ushiftRight, Nat.shiftRight_eq_div_pow]
  shrS i known := ⟨_, IntBinary.leaves known rfl, toInt_sshiftRight_eq_fdiv _⟩
  rotl i known :=
    ⟨_, IntBinary.leaves known rfl, fun _ inside => (getLsbD_rotateLeft_add _ inside).symm⟩
  rotr i i' known known' := by
    refine ⟨_, IntBinary.leaves known rfl, IntBinary.leaves known' ?_⟩
    exact congrArg Except.ok (rotateLeft_rotateLeft n.toNat)

/-- A count of bits is a number of as many bits. -/
theorem toNat_ofNat_count {count : Nat} (few : count ≤ k) :
    (BitVec.ofNat k count).toNat = count :=
  Nat.mod_eq_of_lt (Nat.lt_of_le_of_lt few Nat.lt_two_pow_self)

theorem toInt_extend {n : Nat} (narrow : n ≤ k) :
    ((a.setWidth n).signExtend k).toInt = a.toInt.bmod (2 ^ n) := by
  rw [BitVec.toInt_signExtend_of_le narrow, BitVec.toInt_setWidth, BitVec.toInt_eq_toNat_bmod,
    Int.bmod_bmod_of_dvd (Nat.pow_dvd_pow 2 narrow)]

theorem unaryExact (w : Width) (a : BitVec w.bits) : UnaryExact w a where
  clz i known := by
    refine ⟨_, IntUnary.leaves known a, ?_⟩
    rw [IntUnary.onBits, toNat_ofNat_count (leadingZeros_le a)]
    exact leadingZeros_spec a
  ctz i known := by
    refine ⟨_, IntUnary.leaves known a, ?_⟩
    rw [IntUnary.onBits, toNat_ofNat_count (trailingZeros_le a)]
    exact trailingZeros_spec a
  popcnt i known := by
    refine ⟨_, IntUnary.leaves known a, ?_⟩
    rw [IntUnary.onBits, toNat_ofNat_count (population_le _)]
    exact population_eq_card a
  extend op n i part known := by
    refine ⟨_, IntUnary.leaves known a, ?_⟩
    cases op <;> cases part
    case extend8 => exact toInt_extend (by cases w <;> decide)
    case extend16 => exact toInt_extend (by cases w <;> decide)
    case extend32 => exact toInt_extend (by cases w <;> decide)

/-- The integer instructions of both widths, on all operands. -/
theorem integers_exact (w : Width) : IntegersExact w where
  sums := sumsExact w
  division := divisionExact w
  shifts := shiftsExact w
  unary := unaryExact w

end WasmMachine.Numeric
