/-
# What float patterns stand for

A pattern of a binary format is read by its three fields as a NaN, an infinity or a rational
number, as the definition of the formats has it.  The machine reads a pattern into a sign, a
mantissa and an exponent; this is the same reading, the integer part that it takes from them
is that of the number, and a pattern that is widened from 32 to 64 bits is read as before.
-/

import Mathlib.Algebra.Order.Floor.Ring
import Mathlib.Data.Rat.Floor
import Mathlib.Tactic.FieldSimp
import Mathlib.Tactic.Ring
import WasmMachine.Numeric.Float

namespace WasmMachine

/-- What a pattern stands for. -/
inductive Reading
  | nan
  | infinite (negative : Bool)
  | number (x : ℚ)

/-- The integer part of a number, toward zero. -/
def towardZero (x : ℚ) : ℤ := if 0 ≤ x then ⌊x⌋ else ⌈x⌉

namespace FloatFormat

variable (f : FloatFormat)

/-- The fraction field. -/
def fraction (bits : Nat) : Nat := bits % 2 ^ f.mantissaBits

/-- The exponent field, above the fraction. -/
def exponent (bits : Nat) : Nat := bits / 2 ^ f.mantissaBits % 2 ^ f.exponentBits

/-- The exponent field of the numbers from one to two. -/
def bias : ℤ := 2 ^ (f.exponentBits - 1) - 1

/-- The number of a sign, a factor and a power of two. -/
def number (negative : Bool) (factor : ℚ) (power : ℤ) : Reading :=
  .number ((if negative then -1 else 1) * factor * 2 ^ power)

/-- How a pattern is read. The numbers with the lowest exponent lack the leading one. -/
def reading (bits : Nat) : Reading :=
  let part : ℚ := f.fraction bits / 2 ^ f.mantissaBits
  if f.exponent bits = 2 ^ f.exponentBits - 1 then
    if f.fraction bits = 0 then .infinite (f.isNegative bits) else .nan
  else if f.exponent bits = 0 then number (f.isNegative bits) part (1 - f.bias)
  else number (f.isNegative bits) (1 + part) (f.exponent bits - f.bias)

theorem leastExponent_eq : f.leastExponent = 1 - f.bias - f.mantissaBits := by
  rw [leastExponent, bias]
  ring

theorem absolute_div (bits : Nat) : f.absolute bits / 2 ^ f.mantissaBits = f.exponent bits := by
  rw [absolute, signBit, Nat.pow_add, Nat.mod_mul_right_div_self, exponent]

theorem absolute_mod (bits : Nat) : f.absolute bits % 2 ^ f.mantissaBits = f.fraction bits := by
  rw [absolute, signBit, Nat.pow_add, Nat.mod_mul_right_mod, fraction]

end FloatFormat

/-- What a sign, a mantissa and an exponent stand for. -/
def FloatValue.reading : FloatValue → Reading
  | .nan => .nan
  | .infinite negative => .infinite negative
  | .finite negative mantissa exponent => .number (signedInt negative mantissa * 2 ^ exponent)

theorem cast_signedInt (negative : Bool) (mantissa : Nat) :
    (signedInt negative mantissa : ℚ) = (if negative then -1 else 1) * mantissa := by
  cases negative <;> simp [signedInt]

theorem FloatFormat.reading_value (f : FloatFormat) (bits : Nat) :
    (f.value bits).reading = f.reading bits := by
  have two : (2 : ℚ) ≠ 0 := by norm_num
  simp only [value, absolute_div, absolute_mod, beq_iff_eq, reading, topExponent]
  split
  · split <;> rfl
  · split
    · rw [FloatValue.reading, number, cast_signedInt, leastExponent_eq, zpow_sub₀ two, zpow_natCast]
      congr 1
      ring
    · have power : f.leastExponent + f.exponent bits - 1 =
          f.exponent bits - f.bias - f.mantissaBits := by
        rw [leastExponent_eq]
        ring
      rw [FloatValue.reading, number, cast_signedInt, power, zpow_sub₀ two, zpow_natCast]
      congr 1
      push_cast
      field_simp

/-! ## The integer part -/

theorem towardZero_intCast (n : ℤ) : towardZero n = n := by
  simp [towardZero]

theorem towardZero_neg (x : ℚ) : towardZero (-x) = -towardZero x := by
  simp only [towardZero, neg_nonneg, Int.floor_neg, Int.ceil_neg]
  split
  · next le =>
      split
      · next ge =>
          obtain rfl : x = 0 := le_antisymm le ge
          simp
      · rfl
  · next gt => rw [if_pos (not_le.mp gt).le]

theorem towardZero_mono {x y : ℚ} (le : x ≤ y) : towardZero x ≤ towardZero y := by
  simp only [towardZero]
  split
  · next nonneg =>
      rw [if_pos (nonneg.trans le)]
      exact Int.floor_mono le
  · next negative =>
      have zero : ⌈x⌉ ≤ 0 := Int.ceil_le.mpr (by exact_mod_cast (not_le.mp negative).le)
      split
      · next nonneg => exact zero.trans (Int.floor_nonneg.mpr nonneg)
      · exact Int.ceil_mono le

/-- The machine shifts the mantissa to where its unit is one. -/
theorem FloatValue.integerPart?_finite (negative : Bool) (mantissa : Nat) (exponent : Int) :
    (FloatValue.finite negative mantissa exponent).integerPart? =
      some (towardZero (signedInt negative mantissa * 2 ^ exponent)) := by
  have signed (n : Nat) (x : ℚ) (part : towardZero x = n) :
      signedInt negative n = towardZero ((if negative then -1 else 1) * x) := by
    cases negative with
    | false => simp [signedInt, part]
    | true => simp [signedInt, towardZero_neg, part]
  rw [cast_signedInt, mul_assoc, integerPart?]
  split
  · next whole =>
      obtain ⟨k, rfl⟩ := Int.eq_ofNat_of_zero_le whole
      refine congrArg some (signed _ _ ?_)
      have integer : (mantissa : ℚ) * 2 ^ (k : ℤ) = ((mantissa * 2 ^ k : Nat) : ℤ) := by
        rw [zpow_natCast]
        push_cast
        rfl
      rw [Int.toNat_natCast, Nat.shiftLeft_eq, integer, towardZero_intCast]
  · next fractional =>
      obtain ⟨k, rfl⟩ : ∃ k : Nat, exponent = -k := ⟨(-exponent).toNat, by omega⟩
      refine congrArg some (signed _ _ ?_)
      have quotient : (mantissa : ℚ) * 2 ^ (-k : ℤ) = ((mantissa : ℤ) : ℚ) / (2 ^ k : Nat) := by
        rw [zpow_neg, zpow_natCast]
        push_cast
        rfl
      rw [neg_neg, Int.toNat_natCast, Nat.shiftRight_eq_div_pow, quotient, towardZero,
        if_pos (by positivity), Rat.floor_intCast_div_natCast]
      norm_cast

/-! ## Widening -/

namespace FloatFormat

variable (f : FloatFormat)

/-- The fields of a pattern that was put together from them. -/
theorem fields_withSign (negative : Bool) {upper lower : Nat} (fits : upper < 2 ^ f.exponentBits)
    (fits' : lower < 2 ^ f.mantissaBits) :
    f.isNegative (f.withSign negative (upper * 2 ^ f.mantissaBits + lower)) = negative ∧
      f.exponent (f.withSign negative (upper * 2 ^ f.mantissaBits + lower)) = upper ∧
      f.fraction (f.withSign negative (upper * 2 ^ f.mantissaBits + lower)) = lower := by
  have positive := Nat.two_pow_pos f.mantissaBits
  have small : upper * 2 ^ f.mantissaBits + lower < f.signBit := by
    calc upper * 2 ^ f.mantissaBits + lower
        < (upper + 1) * 2 ^ f.mantissaBits := by rw [Nat.succ_mul]; omega
      _ ≤ 2 ^ f.exponentBits * 2 ^ f.mantissaBits := Nat.mul_le_mul_right _ fits
      _ = f.signBit := by rw [signBit, Nat.pow_add, Nat.mul_comm]
  have clear : (upper * 2 ^ f.mantissaBits + lower).testBit (f.mantissaBits + f.exponentBits) =
      false := Nat.testBit_lt_two_pow small
  have above : (upper * 2 ^ f.mantissaBits + lower) / 2 ^ f.mantissaBits = upper := by
    rw [Nat.add_comm, Nat.add_mul_div_right _ _ positive, Nat.div_eq_of_lt fits', Nat.zero_add]
  have below : (upper * 2 ^ f.mantissaBits + lower) % 2 ^ f.mantissaBits = lower := by
    rw [Nat.add_comm, Nat.add_mul_mod_self_right, Nat.mod_eq_of_lt fits']
  cases negative with
  | false =>
      exact ⟨clear, by rw [withSign, if_neg (by decide), exponent, above, Nat.mod_eq_of_lt fits],
        below⟩
  | true =>
      rw [withSign, if_pos rfl, isNegative, exponent, fraction, signBit,
        Nat.testBit_two_pow_add_eq, clear, Nat.pow_add, Nat.mul_add_div positive,
        Nat.mul_add_mod, above, below, Nat.add_mod_left, Nat.mod_eq_of_lt fits]
      exact ⟨rfl, rfl, rfl⟩

/-- Moved up to the highest bit that the format has room for, a mantissa gains its leading
one. -/
theorem scaled_bounds {n k : Nat} (some : n ≠ 0) (fits : n.log2 ≤ k) :
    2 ^ k ≤ n * 2 ^ (k - n.log2) ∧ n * 2 ^ (k - n.log2) < 2 * 2 ^ k := by
  have whole : 2 ^ n.log2 * 2 ^ (k - n.log2) = 2 ^ k := by
    rw [← Nat.pow_add, Nat.add_sub_cancel' fits]
  constructor
  · rw [← whole]
    exact Nat.mul_le_mul_right _ (Nat.log2_self_le some)
  · rw [← whole, ← Nat.mul_assoc, ← Nat.pow_succ']
    exact Nat.mul_lt_mul_of_pos_right Nat.lt_log2_self (Nat.two_pow_pos _)

section Exact

variable {mantissa : Nat} {exponent : Int} (some : mantissa ≠ 0)
  (fits : mantissa.log2 ≤ f.mantissaBits) (low : 0 < exponent + mantissa.log2 + f.bias)
  (high : exponent + mantissa.log2 + f.bias < f.topExponent)

include some fits low high

/-- Where a format has room for the mantissa and for the exponent, nothing is rounded. -/
theorem round_eq (negative : Bool) :
    f.round negative mantissa exponent =
      f.withSign negative ((exponent + mantissa.log2 + f.bias).toNat * 2 ^ f.mantissaBits +
        (mantissa * 2 ^ (f.mantissaBits - mantissa.log2) - 2 ^ f.mantissaBits)) := by
  obtain ⟨least, greatest⟩ := scaled_bounds some fits
  have target :
      Max.max (exponent + (mantissa.log2 + 1 : Int) - (f.mantissaBits + 1)) f.leastExponent =
        exponent - (f.mantissaBits - mantissa.log2 : Nat) := by
    rw [leastExponent_eq]
    omega
  have places : (exponent - (exponent - (f.mantissaBits - mantissa.log2 : Nat) : Int)).toNat =
      f.mantissaBits - mantissa.log2 := by omega
  obtain ⟨e, upper⟩ : ∃ e, (exponent + mantissa.log2 + f.bias).toNat = e + 1 :=
    ⟨(exponent + mantissa.log2 + f.bias).toNat - 1, by omega⟩
  have rest : (exponent - (f.mantissaBits - mantissa.log2 : Nat) - f.leastExponent).toNat = e := by
    rw [leastExponent_eq]
    omega
  have finite : (e + 2) * 2 ^ f.mantissaBits ≤ f.infinity :=
    Nat.mul_le_mul_right _ (by omega)
  have pattern : e * 2 ^ f.mantissaBits + mantissa * 2 ^ (f.mantissaBits - mantissa.log2) =
      (e + 1) * 2 ^ f.mantissaBits +
        (mantissa * 2 ^ (f.mantissaBits - mantissa.log2) - 2 ^ f.mantissaBits) := by
    rw [Nat.succ_mul]
    omega
  simp only [round, beq_eq_false_iff_ne.mpr some, Bool.false_eq_true, if_false, target,
    if_pos (Int.sub_le_self exponent (Int.natCast_nonneg _)), places, Nat.shiftLeft_eq, rest,
    pattern, upper]
  refine congrArg (f.withSign negative) (Nat.min_eq_left (Nat.le_trans ?_ finite))
  rw [Nat.succ_mul (e + 1)]
  omega

theorem reading_round (negative : Bool) :
    f.reading (f.round negative mantissa exponent) =
      .number (signedInt negative mantissa * 2 ^ exponent) := by
  obtain ⟨least, greatest⟩ := scaled_bounds some fits
  have top : f.topExponent < 2 ^ f.exponentBits :=
    Nat.sub_lt (Nat.two_pow_pos _) (by decide)
  have upper : (exponent + mantissa.log2 + f.bias).toNat < f.topExponent := by omega
  have lower : mantissa * 2 ^ (f.mantissaBits - mantissa.log2) - 2 ^ f.mantissaBits <
      2 ^ f.mantissaBits := by omega
  obtain ⟨sign, above, below⟩ := f.fields_withSign negative (upper.trans top) lower
  have leading : (1 : ℚ) + (mantissa * 2 ^ (f.mantissaBits - mantissa.log2) -
      2 ^ f.mantissaBits : Nat) / 2 ^ f.mantissaBits =
        mantissa * 2 ^ (f.mantissaBits - mantissa.log2) / 2 ^ f.mantissaBits := by
    rw [Nat.cast_sub least]
    push_cast
    field_simp
    ring
  have power : ((exponent + mantissa.log2 + f.bias).toNat : ℤ) - f.bias =
      exponent + f.mantissaBits - (f.mantissaBits - mantissa.log2 : Nat) := by omega
  have finite : (exponent + mantissa.log2 + f.bias).toNat ≠ 2 ^ f.exponentBits - 1 := upper.ne
  rw [f.round_eq some fits low high, reading, sign, above, below, if_neg finite,
    if_neg (by omega), leading, power, number, cast_signedInt]
  have two : (2 : ℚ) ≠ 0 := by norm_num
  rw [zpow_sub₀ two, zpow_add₀ two, zpow_natCast, zpow_natCast]
  congr 1
  field_simp

end Exact

/-- The numbers of a format. -/
theorem bounds_of_value {bits mantissa : Nat} {negative : Bool} {exponent : Int}
    (read : f.value bits = .finite negative mantissa exponent) :
    mantissa < 2 ^ (f.mantissaBits + 1) ∧ f.leastExponent ≤ exponent ∧
      exponent < f.leastExponent + f.topExponent := by
  have upper : f.exponent bits < 2 ^ f.exponentBits := Nat.mod_lt _ (Nat.two_pow_pos _)
  have lower : f.fraction bits < 2 ^ f.mantissaBits := Nat.mod_lt _ (Nat.two_pow_pos _)
  simp only [value, absolute_div, absolute_mod, beq_iff_eq] at read
  rw [Nat.pow_succ]
  split at read
  · split at read <;> cases read
  · next finite =>
      have few : f.exponent bits < f.topExponent := by
        rw [topExponent] at finite ⊢
        omega
      split at read
      · cases read
        omega
      · cases read
        omega

end FloatFormat

/-- Every 32-bit float is a 64-bit float. -/
theorem binary64_reading_ofValue (bits : Nat) :
    binary64.reading (binary64.ofValue (binary32.value bits)) = binary32.reading bits := by
  have zero (negative : Bool) :
      binary64.reading (binary64.withSign negative 0) = .number 0 := by
    obtain ⟨sign, upper, lower⟩ := binary64.fields_withSign negative
      (show 0 < 2 ^ binary64.exponentBits by decide) (show 0 < 2 ^ binary64.mantissaBits by decide)
    rw [Nat.zero_mul] at sign upper lower
    rw [FloatFormat.reading, upper, lower, if_neg (by decide), if_pos rfl, FloatFormat.number]
    simp
  have special (negative : Bool) {lower : Nat} (fits : lower < 2 ^ 52) :
      binary64.reading (binary64.withSign negative (binary64.infinity + lower)) =
        if lower = 0 then .infinite negative else .nan := by
    obtain ⟨sign, upper, below⟩ := binary64.fields_withSign negative
      (show binary64.topExponent < 2 ^ binary64.exponentBits by decide) fits
    rw [FloatFormat.infinity, FloatFormat.reading, upper, below, sign]
    exact if_pos rfl
  rw [← binary32.reading_value bits]
  cases read : binary32.value bits with
  | nan => exact special false (show 2 ^ 51 < 2 ^ 52 by decide)
  | infinite negative => exact special negative (show 0 < 2 ^ 52 by decide)
  | finite negative mantissa exponent =>
      obtain ⟨small, least, greatest⟩ := binary32.bounds_of_value read
      rw [FloatValue.reading, FloatFormat.ofValue]
      by_cases some : mantissa = 0
      · subst some
        refine (zero negative).trans ?_
        cases negative <;> simp [signedInt]
      · have short : mantissa.log2 < 24 := (Nat.log2_lt some).mpr small
        have range : binary32.leastExponent = -149 ∧ binary32.topExponent = 255 ∧
          binary64.bias = 1023 ∧ binary64.topExponent = 2047 := by decide
        exact binary64.reading_round some (by show _ ≤ 52; omega) (by omega) (by omega) negative

end WasmMachine
