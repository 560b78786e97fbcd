/-
# Truncation is exact

A float is cut toward zero into an integer type.  The machine does so in three places: the
truncations that trap compare the integer part with floats just outside of the type, the
saturating ones do the same and move to the nearer end, and those of the lanes of a vector
compare the number itself with the ends.  All of them give the integer part of the number that
the pattern stands for where the type has it.
-/

import WasmMachine.Proofs.Memory.Bulk
import WasmMachine.Proofs.Numeric.Patterns
import WasmMachine.Proofs.Numeric.Readings
import WasmMachine.Proofs.Vector.Instructions

namespace WasmMachine

namespace Numeric

/-- The least integer of a type. -/
def Width.least (w : Width) (signed : Bool) : Int := if signed then -2 ^ (w.bits - 1) else 0

/-- The greatest integer of a type. -/
def Width.greatest (w : Width) (signed : Bool) : Int :=
  if signed then 2 ^ (w.bits - 1) - 1 else 2 ^ w.bits - 1

/-- The type has the integer. -/
def Width.Holds (w : Width) (signed : Bool) (n : Int) : Prop :=
  w.least signed ≤ n ∧ n ≤ w.greatest signed

instance (w : Width) (signed : Bool) (n : Int) : Decidable (w.Holds signed n) :=
  inferInstanceAs (Decidable (_ ∧ _))

end Numeric

open Numeric

/-- The integer part of what a pattern stands for, if a type has it. -/
def Reading.truncated (target : Width) (signed : Bool) : Reading → Except Trap Int
  | .nan => .error .invalidConversion
  | .infinite _ => .error .integerOverflow
  | .number x =>
      if target.Holds signed (towardZero x) then .ok (towardZero x) else .error .integerOverflow

/-- The integer part of what a pattern stands for, brought into a type. -/
def Reading.clamped (target : Width) (signed : Bool) : Reading → Int
  | .nan => 0
  | .infinite negative => if negative then target.least signed else target.greatest signed
  | .number x => max (target.least signed) (min (target.greatest signed) (towardZero x))

namespace Numeric

theorem extremes_eq (target : Width) (signed : Bool) :
    extremes target signed = (target.least signed, target.greatest signed) := by
  cases target <;> cases signed <;> rfl

theorem high_eq (target : Width) (signed : Bool) :
    (bounds target signed).2 = target.greatest signed + 1 := by
  cases target <;> cases signed <;> rfl

theorem least_le_greatest (target : Width) (signed : Bool) :
    target.least signed ≤ target.greatest signed := by
  cases target <;> cases signed <;> decide

/-- A number that needs more bits than its mantissa has ends in zeros. -/
theorem dvd_of_large {mantissa : Nat} {exponent : Int} {n : Nat} (small : mantissa < 2 ^ 53)
    (shifted : n = if 0 ≤ exponent then mantissa <<< exponent.toNat
      else mantissa >>> (-exponent).toNat) (large : 2 ^ 63 < n) : 2048 ∣ n := by
  split at shifted
  · rw [Nat.shiftLeft_eq] at shifted
    have places : 11 ≤ exponent.toNat := by
      apply Nat.le_of_not_lt
      intro few
      have short : 2 ^ exponent.toNat ≤ 2 ^ 10 := Nat.pow_le_pow_right (by decide) (by omega)
      have below := Nat.mul_le_mul_left mantissa short
      omega
    rw [shifted]
    exact Nat.dvd_mul_left_of_dvd (Nat.pow_dvd_pow 2 places) mantissa
  · rw [Nat.shiftRight_eq_div_pow] at shifted
    have below := Nat.div_le_self mantissa (2 ^ (-exponent).toNat)
    omega

/-- No float is between the lower bound and the least integer of a type. -/
theorem le_low_iff {negative : Bool} {mantissa : Nat} {exponent t : Int}
    (small : mantissa < 2 ^ 53)
    (part : (FloatValue.finite negative mantissa exponent).integerPart? = some t)
    (target : Width) (signed : Bool) :
    t ≤ (bounds target signed).1 ↔ t < target.least signed := by
  obtain ⟨n, rfl, shifted⟩ : ∃ n, t = signedInt negative n ∧ n =
      if 0 ≤ exponent then mantissa <<< exponent.toNat else mantissa >>> (-exponent).toNat := by
    rw [FloatValue.integerPart?] at part
    split at part <;> cases part <;> exact ⟨_, rfl, by simp [*]⟩
  have next {low least : Int} (one : low = least - 1) :
      signedInt negative n ≤ low ↔ signedInt negative n < least := by omega
  have apart : signedInt negative n ≤ -2 ^ 63 - 2048 ↔ signedInt negative n < -2 ^ 63 := by
    refine ⟨fun le => by omega, fun lt => ?_⟩
    have zeros := dvd_of_large small shifted
    cases negative with
    | false =>
        rw [signedInt, if_neg (by decide)] at lt
        omega
    | true =>
        rw [signedInt, if_pos rfl] at lt ⊢
        have large : 2 ^ 63 < n := by omega
        have further := zeros large
        omega
  cases target with
  | w32 => cases signed <;> exact next rfl
  | w64 =>
      cases signed with
      | false => exact next rfl
      | true => exact apart

section Formats

variable {f : FloatFormat} (short : f.mantissaBits ≤ 52) (target : Width) (signed : Bool)
  (bits : Nat)

include short

theorem mantissa_lt {bits mantissa : Nat} {negative : Bool} {exponent : Int}
    (read : f.value bits = .finite negative mantissa exponent) : mantissa < 2 ^ 53 :=
  Nat.lt_of_lt_of_le (f.bounds_of_value read).1
    (Nat.pow_le_pow_right (by decide) (Nat.succ_le_succ short))

theorem truncate_value :
    truncate target signed (f.value bits) = (f.reading bits).truncated target signed := by
  rw [← f.reading_value]
  cases read : f.value bits with
  | nan => rfl
  | infinite negative => rfl
  | finite negative mantissa exponent =>
      have part := FloatValue.integerPart?_finite negative mantissa exponent
      have low := le_low_iff (mantissa_lt short read) part target signed
      have high := high_eq target signed
      simp only [truncate, part, Option.getD_some, FloatValue.reading, Reading.truncated]
      generalize towardZero _ = t at low ⊢
      by_cases holds : target.Holds signed t
      · have inside : ¬ (t ≤ (bounds target signed).1 ∨ (bounds target signed).2 ≤ t) := by
          rw [low, high]
          have := holds.1
          have := holds.2
          omega
        rw [if_pos holds, if_neg inside]
      · have outside : t ≤ (bounds target signed).1 ∨ (bounds target signed).2 ≤ t := by
          rw [low, high]
          rw [Width.Holds] at holds
          omega
        rw [if_neg holds, if_pos outside]

theorem truncateSaturating_value :
    truncateSaturating target signed (f.value bits) = (f.reading bits).clamped target signed := by
  rw [← f.reading_value]
  cases read : f.value bits with
  | nan => rfl
  | infinite negative =>
      rw [truncateSaturating, extremes_eq]
      rfl
  | finite negative mantissa exponent =>
      have part := FloatValue.integerPart?_finite negative mantissa exponent
      have low := le_low_iff (mantissa_lt short read) part target signed
      have high := high_eq target signed
      have ends := least_le_greatest target signed
      simp only [truncateSaturating, part, Option.getD_some, FloatValue.reading, Reading.clamped,
        extremes_eq]
      generalize towardZero _ = t at low ⊢
      split
      · omega
      · split <;> omega

end Formats

theorem intValue_eq (w : Width) (n : Int) : w.intValue n = w.integer (.ofInt w.bits n) := by
  cases w with
  | w32 => exact congrArg Value.i32 (UInt32.eq_of_toBitVec_eq (toBitVec_ofInt32 n))
  | w64 => exact congrArg Value.i64 (UInt64.eq_of_toBitVec_eq (toBitVec_ofInt64 n))

/-- An integer of a type is read back from its pattern. -/
theorem toInt_ofInt_of_holds {w : Width} {n : Int} (holds : w.Holds true n) :
    (BitVec.ofInt w.bits n).toInt = n :=
  BitVec.toInt_ofInt_eq_self w.bits_pos holds.1 (Int.lt_of_le_sub_one holds.2)

theorem toNat_ofInt_of_holds {w : Width} {n : Int} (holds : w.Holds false n) :
    ((BitVec.ofInt w.bits n).toNat : Int) = n := by
  have positive : 0 ≤ n := holds.1
  have below : n < (2 ^ w.bits : Nat) := by
    push_cast
    exact Int.lt_of_le_sub_one holds.2
  rw [BitVec.toNat_ofInt, Int.emod_eq_of_lt positive below, Int.toNat_of_nonneg positive]

theorem readInt_intValue {w : Width} {signed : Bool} {n : Int} (holds : w.Holds signed n) :
    readInt signed (w.intValue n) = some n := by
  have read (x : BitVec w.bits) :
      readInt signed (w.integer x) = some (if signed then x.toInt else x.toNat) := by
    cases w <;> rfl
  rw [intValue_eq, read]
  cases signed with
  | true => exact congrArg some (toInt_ofInt_of_holds holds)
  | false => exact congrArg some (toNat_ofInt_of_holds holds)

theorem clamped_holds (r : Reading) (target : Width) (signed : Bool) :
    target.Holds signed (r.clamped target signed) := by
  have ends := least_le_greatest target signed
  have zero : target.least signed ≤ 0 ∧ 0 ≤ target.greatest signed := by
    cases target <;> cases signed <;> decide
  cases r with
  | nan => exact zero
  | infinite negative =>
      rw [Reading.clamped]
      split
      · exact ⟨le_rfl, ends⟩
      · exact ⟨ends, le_rfl⟩
  | number x => exact ⟨le_max_left _ _, max_le ends (min_le_left _ _)⟩

end Numeric

/-! ## Lanes -/

namespace V128

/-- Both comparisons are made with integers, after the number and the bound were multiplied by
the same power of two. -/
theorem exists_scale (negative : Bool) (mantissa : Nat) (exponent n : Int) :
    ∃ (scale : ℚ) (a b : Int), 0 < scale ∧
      (a : ℚ) = signedInt negative mantissa * 2 ^ exponent * scale ∧ (b : ℚ) = n * scale ∧
      finiteLe negative mantissa exponent n = decide (a ≤ b) ∧
      finiteGe negative mantissa exponent n = decide (b ≤ a) := by
  by_cases whole : 0 ≤ exponent
  · refine ⟨1, _, _, one_pos, ?_, (mul_one _).symm, if_pos whole, if_pos whole⟩
    obtain ⟨k, rfl⟩ := Int.eq_ofNat_of_zero_le whole
    rw [cast_signedInt, cast_signedInt, Int.toNat_natCast, Nat.shiftLeft_eq, zpow_natCast]
    push_cast
    ring
  · refine ⟨2 ^ (-exponent).toNat, _, _, by positivity, ?_, ?_, if_neg whole, if_neg whole⟩
    · obtain ⟨k, rfl⟩ : ∃ k : Nat, exponent = -k := ⟨(-exponent).toNat, by omega⟩
      rw [neg_neg, Int.toNat_natCast, zpow_neg, zpow_natCast, mul_assoc,
        inv_mul_cancel₀ (by positivity), mul_one]
    · rw [Int.shiftLeft_eq]
      push_cast
      rfl

theorem finiteLe_iff (negative : Bool) (mantissa : Nat) (exponent n : Int) :
    finiteLe negative mantissa exponent n = true ↔
      (signedInt negative mantissa * 2 ^ exponent : ℚ) ≤ n := by
  obtain ⟨scale, a, b, positive, left, right, test, -⟩ :=
    exists_scale negative mantissa exponent n
  rw [test, decide_eq_true_iff, ← Int.cast_le (R := ℚ), left, right,
    mul_le_mul_iff_of_pos_right positive]

theorem finiteGe_iff (negative : Bool) (mantissa : Nat) (exponent n : Int) :
    finiteGe negative mantissa exponent n = true ↔
      (n : ℚ) ≤ signedInt negative mantissa * 2 ^ exponent := by
  obtain ⟨scale, a, b, positive, left, right, -, test⟩ :=
    exists_scale negative mantissa exponent n
  rw [test, decide_eq_true_iff, ← Int.cast_le (R := ℚ), left, right,
    mul_le_mul_iff_of_pos_right positive]

/-- Comparing the number instead of its integer part makes no difference. -/
theorem saturate32_eq (signed : Bool) (v : FloatValue) :
    saturate32 signed v = v.reading.clamped .w32 signed := by
  cases v with
  | nan => rfl
  | infinite negative =>
      rw [saturate32, extremes_eq]
      rfl
  | finite negative mantissa exponent =>
      have part := FloatValue.integerPart?_finite negative mantissa exponent
      have ends := least_le_greatest .w32 signed
      simp only [saturate32, extremes_eq, finiteLe_iff, finiteGe_iff, part, Option.getD_some,
        FloatValue.reading, Reading.clamped]
      generalize (signedInt negative mantissa * 2 ^ exponent : ℚ) = x
      split
      · next low =>
          have part_low := towardZero_mono low
          rw [towardZero_intCast] at part_low
          omega
      · next high =>
          have least := towardZero_mono (not_le.mp high).le
          rw [towardZero_intCast] at least
          split
          · next le =>
              have part_high := towardZero_mono le
              rw [towardZero_intCast] at part_high
              omega
          · next lt =>
              have greatest := towardZero_mono (not_le.mp lt).le
              rw [towardZero_intCast] at greatest
              omega

theorem lane_truncateLanes (signed : Bool) (v : V128) {i : Nat} (inside : i < 4) :
    (truncateLanes signed v).lane 32 i =
      BitVec.ofInt 32 ((binary32.reading (v.lane 32 i).toNat).clamped .w32 signed) := by
  rw [← FloatFormat.reading_value, ← saturate32_eq]
  exact lane_ofLanes_count (w := .w32) _ inside

end V128

/-! ## Instructions -/

namespace Numeric

/-- The operand that is a float with the given pattern. -/
def Width.floating : (w : Width) → BitVec w.bits → Value
  | .w32, a => .f32 (.ofBitVec a)
  | .w64, a => .f64 (.ofBitVec a)

/-- The pattern in the 64-bit format; a shorter one is widened. -/
def Width.widened : (w : Width) → BitVec w.bits → Nat
  | .w32, a => binary64.ofValue (binary32.value a.toNat)
  | .w64, a => a.toNat

/-- What a float stands for. -/
def Width.reading (w : Width) (a : BitVec w.bits) : Reading := binary64.reading (w.widened a)

theorem Width.reading_eq (w : Width) (a : BitVec w.bits) :
    w.reading a = w.format.reading a.toNat := by
  cases w with
  | w32 => exact binary64_reading_ofValue a.toNat
  | w64 => rfl

theorem Width.mantissaBits_le (w : Width) : w.format.mantissaBits ≤ 52 := by cases w <;> decide

/-- The opcode of a truncation that traps. -/
def truncation (target from_ : Width) (signed : Bool) : UInt8 :=
  (match target with | .w32 => 0xa8 | .w64 => 0xae) +
    (match from_ with | .w32 => 0 | .w64 => 2) + if signed then 0 else 1

theorem ofOpcode_truncation (target from_ : Width) (signed : Bool) :
    Operation.ofOpcode (truncation target from_ signed) =
      some (.conversion (.truncate target from_ signed)) := by
  cases target <;> cases from_ <;> cases signed <;> decide +kernel

theorem convert_truncate (target from_ : Width) (signed : Bool) (a : BitVec from_.bits) :
    (Conversion.truncate target from_ signed).apply (from_.floating a) =
      (truncate target signed (from_.format.value a.toNat)).map target.intValue := by
  cases from_ with
  | w32 =>
      show (do return target.intValue (← truncate target signed (binary32.value a.toNat))) = _
      rw [Width.format]
      cases truncate target signed (binary32.value a.toNat) <;> rfl
  | w64 =>
      show (do return target.intValue (← truncate target signed (binary64.value a.toNat))) = _
      rw [Width.format]
      cases truncate target signed (binary64.value a.toNat) <;> rfl

section Trapping

variable {target from_ : Width} {signed : Bool} {i : Instruction}
  (known : i.opcode = truncation target from_ signed) (a : BitVec from_.bits)

include known

theorem computes_truncation :
    i.Computes [from_.floating a]
      (((from_.reading a).truncated target signed).map target.intValue) := by
  refine Instruction.computes_of_numeric (known ▸ ofOpcode_truncation target from_ signed) ?_
  intro rest
  rw [from_.reading_eq, ← truncate_value from_.mantissaBits_le]
  show (do
      return (← (Conversion.truncate target from_ signed).apply (from_.floating a)) :: rest) = _
  rw [convert_truncate]
  cases truncate target signed (from_.format.value a.toNat) <;> rfl

theorem trapsOn_truncation_iff (t : Trap) :
    i.TrapsOn [from_.floating a] t ↔ (from_.reading a).truncated target signed = .error t :=
  (computes_truncation known a).trapsOn_map_iff t

end Trapping

end Numeric

namespace Reading

variable {target : Width} {signed : Bool} {r : Reading}

theorem truncated_eq_invalid_iff :
    r.truncated target signed = .error .invalidConversion ↔ r = .nan := by
  cases r with
  | nan => exact iff_of_true rfl rfl
  | infinite negative => simp [truncated]
  | number x =>
      rw [truncated]
      split <;> simp

theorem truncated_eq_overflow_iff :
    r.truncated target signed = .error .integerOverflow ↔
      (∃ negative, r = .infinite negative) ∨
        ∃ x, r = .number x ∧ ¬ target.Holds signed (towardZero x) := by
  cases r with
  | nan => simp [truncated]
  | infinite negative => simp [truncated]
  | number x =>
      rw [truncated]
      split <;> simp [*]

end Reading

namespace Numeric

/-- The width of the integers that a saturating truncation gives. -/
def Width.of (wide : Bool) : Width := if wide then .w64 else .w32

theorem leaves_truncateOperand {to64 from64 signed : Bool} {from_ : Width} {i : Instruction}
    (known : i.miscOp? = some (.truncate to64 from64 signed)) (a : BitVec from_.bits) :
    i.Leaves [from_.floating a]
      ((Width.of to64).intValue ((from_.reading a).clamped (.of to64) signed)) := by
  have code : i.opcode = Opcode.misc ∧ MiscOp.ofCode i.misc.1 =
      some (.truncate to64 from64 signed) := by
    rw [Instruction.miscOp?] at known
    split at known
    · next code => exact ⟨code, MiscOp.lookup_numbers _ ▸ known⟩
    · cases known
  intro options rest frame store
  rw [Instruction.plain_misc known options i.misc.1 code.2, Step.misc, code.2]
  rw [from_.reading_eq, ← truncateSaturating_value from_.mantissaBits_le]
  cases from_ <;> rfl

/-- Where the truncation that traps does not, the saturating one gives the same. -/
theorem truncateSaturating_of_truncate {target : Width} {signed : Bool} {v : FloatValue} {n : Int}
    (whole : truncate target signed v = .ok n) : truncateSaturating target signed v = n := by
  cases v with
  | nan => cases whole
  | infinite negative => cases whole
  | finite negative mantissa exponent =>
      simp only [truncate] at whole
      simp only [truncateSaturating]
      split at whole
      · cases whole
      · next inside =>
          cases whole
          rw [not_or] at inside
          rw [if_neg inside.1, if_neg inside.2]

/-- What the truncations make of the number that a pattern stands for. -/
structure TruncationsExact : Prop where
  /-- Nothing is lost when a pattern is widened. -/
  widening : ∀ bits, binary64.reading (binary64.ofValue (binary32.value bits)) =
    binary32.reading bits
  /-- A truncation traps for what is no number and for an integer part that the type lacks. -/
  trapping : ∀ (target from_ : Width) (signed : Bool) (i : Instruction) (a : BitVec from_.bits),
    i.opcode = truncation target from_ signed →
    (i.TrapsOn [from_.floating a] .invalidConversion ↔ from_.reading a = .nan) ∧
    (i.TrapsOn [from_.floating a] .integerOverflow ↔
      (∃ negative, from_.reading a = .infinite negative) ∨
        ∃ x, from_.reading a = .number x ∧ ¬ target.Holds signed (towardZero x)) ∧
    ∀ x, from_.reading a = .number x → target.Holds signed (towardZero x) →
      ∃ v, i.Leaves [from_.floating a] v ∧ readInt signed v = some (towardZero x)
  /-- A saturating one takes what it finds, of either width. -/
  saturating : ∀ (to64 from64 signed : Bool) (from_ : Width) (i : Instruction)
    (a : BitVec from_.bits), i.miscOp? = some (.truncate to64 from64 signed) →
    ∃ v, i.Leaves [from_.floating a] v ∧
      readInt signed v = some ((from_.reading a).clamped (.of to64) signed)
  /-- The lanes of a vector are truncated as scalars are, after they were widened. -/
  lanes : ∀ (signed : Bool) (i : Instruction) (v : V128), i.IsVector (.truncate signed) →
    ∃ r, i.Leaves [.v128 v] (.v128 r) ∧ ∀ j, j < 4 →
      (if signed then r.signedNumber .w32 j else r.number .w32 j) =
        truncateSaturating .w32 signed (binary64.value (binary64.ofValue (v.float32 j)))
  agreeing : ∀ (target : Width) (signed : Bool) (v : FloatValue) (n : Int),
    truncate target signed v = .ok n → truncateSaturating target signed v = n

theorem truncations_exact : TruncationsExact where
  widening := binary64_reading_ofValue
  trapping target from_ signed i a known := by
    refine ⟨?_, ?_, fun x read holds => ?_⟩
    · rw [trapsOn_truncation_iff known, Reading.truncated_eq_invalid_iff]
    · rw [trapsOn_truncation_iff known, Reading.truncated_eq_overflow_iff]
    · have computes := computes_truncation known a
      rw [read, Reading.truncated, if_pos holds] at computes
      exact ⟨_, computes.leaves, readInt_intValue holds⟩
  saturating to64 from64 signed from_ i a known :=
    ⟨_, leaves_truncateOperand known a, readInt_intValue (clamped_holds _ _ _)⟩
  lanes signed i v known := by
    refine ⟨_, Instruction.leaves_of_vector known rfl fun _ => rfl, fun j inside => ?_⟩
    have holds := clamped_holds (binary32.reading (v.lane 32 j).toNat) .w32 signed
    rw [V128.float32, truncateSaturating_value (by decide), binary64_reading_ofValue]
    have lane := V128.lane_truncateLanes signed v inside
    cases signed with
    | true =>
        have value := toInt_ofInt_of_holds holds
        rw [if_pos rfl, ← V128.toInt_lane]
        exact (congrArg BitVec.toInt lane).trans value
    | false =>
        have value := toNat_ofInt_of_holds holds
        rw [if_neg (by decide), ← V128.toNat_lane]
        exact (congrArg (fun x => (x.toNat : Int)) lane).trans value
  agreeing _ _ _ _ whole := truncateSaturating_of_truncate whole

end Numeric

end WasmMachine
