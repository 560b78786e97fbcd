/-
# Vector operations lane by lane

A lane is a number: its bytes in memory order, lowest first.  So the four ways of reading a
vector are ways of reading the same sixteen bytes, and each operation is told by the numbers
in its lanes, without the patterns that it is computed with.
-/

import WasmMachine.Proofs.Memory.Numbers
import WasmMachine.Proofs.Memory.Runs
import WasmMachine.Numeric.Power

namespace WasmMachine

theorem LaneWidth.bits_pos (w : LaneWidth) : 0 < w.bits := by cases w <;> decide

namespace V128

/-! ## Lanes as numbers -/

/-- The number in lane `i`, without a sign. -/
def number (v : V128) (w : LaneWidth) (i : Nat) : Nat :=
  Decoder.littleEndian ((v.toBytes.drop (i * w.bytes)).take w.bytes)

/-- The number in lane `i`, with a sign. -/
def signedNumber (v : V128) (w : LaneWidth) (i : Nat) : Int :=
  (v.number w i : Int).bmod (2 ^ w.bits)

variable {w : LaneWidth}

theorem getLsbD_lane (v : V128) (k i : Nat) {j : Nat} (inside : j < k) :
    (v.lane k i).getLsbD j = v.getLsbD (i * k + j) := by
  rw [lane, BitVec.getLsbD_extractLsb', decide_eq_true inside, Bool.true_and]

theorem getD_toBytes (v : V128) (j : Nat) : (v.toBytes.getD j 0).toBitVec = v.lane 8 j := by
  by_cases inside : j < 16
  · simp [toBytes, inside]
  · have behind : v.toBytes[j]? = none :=
      List.getElem?_eq_none (by rw [length_toBytes]; exact Nat.not_lt.mp inside)
    rw [List.getD_eq_getElem?_getD, behind]
    apply BitVec.eq_of_getLsbD_eq
    intro k small
    rw [getLsbD_lane v 8 j small, BitVec.getLsbD_of_ge v _ (by omega)]
    exact BitVec.getLsbD_zero

/-- The number in a lane is that of the bits of the lane. -/
theorem toNat_lane (v : V128) (w : LaneWidth) (i : Nat) :
    (v.lane w.bits i).toNat = v.number w i := by
  have whole : w.bits = 8 * w.bytes := by cases w <;> rfl
  apply Nat.eq_of_testBit_eq
  intro k
  rw [number, Bytes.testBit_littleEndian, BitVec.testBit_toNat, List.getD_eq_getElem?_getD]
  by_cases inside : k < w.bits
  · have byte : k / 8 < w.bytes := by omega
    have place : i * w.bits + k = (i * w.bytes + k / 8) * 8 + k % 8 := by
      rw [whole, Nat.add_mul, Nat.mul_assoc, Nat.mul_comm 8 w.bytes]
      omega
    rw [Cells.getElem?_run byte, ← List.getD_eq_getElem?_getD, getD_toBytes,
      getLsbD_lane v _ _ inside, getLsbD_lane v 8 _ (Nat.mod_lt _ (by decide)), place]
  · rw [List.getElem?_eq_none (by rw [List.length_take]; omega),
      BitVec.getLsbD_of_ge _ _ (Nat.not_lt.mp inside)]
    exact BitVec.getLsbD_zero.symm

theorem toInt_lane (v : V128) (w : LaneWidth) (i : Nat) :
    (v.lane w.bits i).toInt = v.signedNumber w i := by
  rw [BitVec.toInt_eq_toNat_bmod, toNat_lane, signedNumber]

theorem number_lt (v : V128) (w : LaneWidth) (i : Nat) : v.number w i < 2 ^ w.bits := by
  rw [← toNat_lane]
  exact BitVec.isLt _

theorem getLsbD_eq_lane {k : Nat} (some_bits : 0 < k) (v : V128) (j : Nat) :
    v.getLsbD j = (v.lane k (j / k)).getLsbD (j % k) := by
  rw [getLsbD_lane v k _ (Nat.mod_lt _ some_bits), Nat.div_add_mod']

/-- A vector is known by its lanes. -/
theorem eq_of_lanes (w : LaneWidth) {u v : V128}
    (same : ∀ i, i < w.count → u.lane w.bits i = v.lane w.bits i) : u = v := by
  have full : w.count * w.bits = 128 := by cases w <;> rfl
  apply BitVec.eq_of_getLsbD_eq
  intro j small
  have lane : j / w.bits < w.count := by
    rw [Nat.div_lt_iff_lt_mul w.bits_pos, full]
    exact small
  rw [getLsbD_eq_lane w.bits_pos u, getLsbD_eq_lane w.bits_pos v, same _ lane]

theorem lane_ofLanes_count (f : Nat → BitVec w.bits) {i : Nat} (inside : i < w.count) :
    (ofLanes w.bits w.count f).lane w.bits i = f i :=
  lane_ofLanes f inside (by cases w <;> decide)

theorem number_ofLanes (f : Nat → BitVec w.bits) {i : Nat} (inside : i < w.count) :
    (ofLanes w.bits w.count f).number w i = (f i).toNat := by
  rw [← toNat_lane, lane_ofLanes_count f inside]

/-! ## The operations -/

theorem number_setLane (v : V128) (x : UInt64) {i j : Nat} (inside : j < w.count) :
    (v.setLane w.bits w.count i (x.toBitVec.setWidth w.bits)).number w j =
      if j = i then x.toNat % 2 ^ w.bits else v.number w j := by
  rw [setLane, number_ofLanes _ inside]
  split
  · rw [BitVec.toNat_setWidth]
    rfl
  · exact toNat_lane v w j

theorem number_splat (x : UInt64) {i : Nat} (inside : i < w.count) :
    (splat w (x.toBitVec.setWidth w.bits)).number w i = x.toNat % 2 ^ w.bits := by
  rw [splat, number_ofLanes _ inside, BitVec.toNat_setWidth]
  rfl

theorem number_add (a b : V128) {i : Nat} (inside : i < w.count) :
    (add w a b).number w i = (a.number w i + b.number w i) % 2 ^ w.bits := by
  rw [add, number_ofLanes _ inside, BitVec.toNat_add, toNat_lane, toNat_lane]

theorem number_sub (a b : V128) {i : Nat} (inside : i < w.count) :
    ((sub w a b).number w i : Int) = ((a.number w i : Int) - b.number w i) % 2 ^ w.bits := by
  have around : ((2 ^ w.bits - b.number w i + a.number w i : Nat) : Int) =
      (a.number w i : Int) - b.number w i + (2 ^ w.bits : Nat) := by
    have below := number_lt b w i
    omega
  rw [sub, number_ofLanes _ inside, BitVec.toNat_sub, toNat_lane, toNat_lane, Int.natCast_emod,
    around, Int.add_emod_right]
  norm_cast

theorem allTrue_iff (v : V128) :
    allTrue w v = true ↔ ∀ i, i < w.count → v.number w i ≠ 0 := by
  have nonzero (i : Nat) : (v.lane w.bits i != 0) = true ↔ v.number w i ≠ 0 := by
    rw [bne_iff_ne, Ne, Ne, ← toNat_lane, ← BitVec.toNat_inj]
    rfl
  simp only [allTrue, List.all_eq_true, List.mem_range, nonzero]

theorem anyTrue_iff (v : V128) : anyTrue v = true ↔ ∃ i, i < 16 ∧ v.number .w8 i ≠ 0 := by
  have blank (i : Nat) : (0 : V128).lane 8 i = 0 := BitVec.extractLsb'_zero
  rw [anyTrue, bne_iff_ne]
  constructor
  · intro some
    apply Decidable.byContradiction
    intro none
    refine some (eq_of_lanes .w8 fun i inside => BitVec.eq_of_toNat_eq ?_)
    have zero : v.number .w8 i = 0 :=
      Decidable.byContradiction fun other => none ⟨i, inside, other⟩
    rw [toNat_lane, zero]
    exact (congrArg BitVec.toNat (blank i)).symm
  · rintro ⟨i, -, other⟩ rfl
    rw [← toNat_lane] at other
    exact other (congrArg BitVec.toNat (blank i))

/-- A mask to which a bit is added for each number below `n` that passes a test. -/
theorem testBit_mask (test : Nat → Bool) {n : Nat} (few : n ≤ 32) (i : Nat) :
    ((List.range n).foldl
      (fun mask i => if test i then mask ||| (1 <<< UInt32.ofNat i) else mask) 0).toNat.testBit i =
      (decide (i < n) && test i) := by
  induction n with
  | zero => exact Nat.zero_testBit i
  | succ n ih =>
      have place : (UInt32.ofNat n).toNat = n :=
        UInt32.toNat_ofNat_of_lt' (Nat.lt_of_lt_of_le few (by decide))
      have single : 2 ^ n < 2 ^ 32 := Nat.pow_lt_pow_right (by decide) few
      have added : (1 <<< UInt32.ofNat n : UInt32).toNat = 2 ^ n := by
        rw [UInt32.toNat_shiftLeft, place, Nat.mod_eq_of_lt few, UInt32.toNat_one,
          Nat.one_shiftLeft, Nat.mod_eq_of_lt single]
      rw [List.range_succ, List.foldl_append, List.foldl_cons, List.foldl_nil]
      by_cases last : i = n
      · subst last
        cases passes : test i
        · simp [ih (Nat.le_of_succ_le few)]
        · simp [ih (Nat.le_of_succ_le few), added]
      · have before : decide (i < n + 1) = decide (i < n) := by
          rw [decide_eq_decide]
          omega
        split
        · rw [UInt32.toNat_or, Nat.testBit_or, ih (Nat.le_of_succ_le few), added,
            Nat.testBit_two_pow, decide_eq_false (Ne.symm last), Bool.or_false, before]
        · rw [ih (Nat.le_of_succ_le few), before]

theorem testBit_bitmask (v : V128) (i : Nat) :
    (bitmask w v).toNat.testBit i =
      (decide (i < w.count) && (v.number w i).testBit (w.bits - 1)) := by
  have few : w.count ≤ 32 := by cases w <;> decide
  rw [bitmask, testBit_mask _ few, BitVec.msb_eq_getLsbD_last, ← BitVec.testBit_toNat, toNat_lane]

theorem testBit_number (v : V128) (i : Nat) {j : Nat} (inside : j < w.bits) :
    (v.number w i).testBit j = v.getLsbD (i * w.bits + j) := by
  rw [← toNat_lane, BitVec.testBit_toNat, getLsbD_lane v _ _ inside]

theorem testBit_bitselect (a b c : V128) {i j : Nat} (inside : i < 16) (small : j < 8) :
    ((bitselect a b c).number .w8 i).testBit j =
      if (c.number .w8 i).testBit j then (a.number .w8 i).testBit j
      else (b.number .w8 i).testBit j := by
  have within : i * 8 + j < 128 := by omega
  simp only [testBit_number (w := .w8) _ i small]
  show (bitselect a b c).getLsbD (i * 8 + j) =
    if c.getLsbD (i * 8 + j) then a.getLsbD (i * 8 + j) else b.getLsbD (i * 8 + j)
  rw [bitselect, BitVec.getLsbD_or, BitVec.getLsbD_and, BitVec.getLsbD_and, BitVec.getLsbD_not,
    decide_eq_true within]
  cases c.getLsbD (i * 8 + j) <;> simp

theorem number_swizzle (a s : V128) {i : Nat} (inside : i < 16) :
    (swizzle a s).number .w8 i =
      if s.number .w8 i < 16 then a.number .w8 (s.number .w8 i) else 0 := by
  have lane : (s.lane 8 i).toNat = s.number .w8 i := toNat_lane s .w8 i
  refine (number_ofLanes (w := .w8) _ inside).trans ?_
  simp only [lane]
  split
  · exact toNat_lane a .w8 _
  · rfl

theorem number_shuffle (a b indices : V128) {i : Nat} (inside : i < 16)
    (known : indices.number .w8 i < 32) :
    (shuffle a b indices).number .w8 i =
      if indices.number .w8 i < 16 then a.number .w8 (indices.number .w8 i)
      else b.number .w8 (indices.number .w8 i - 16) := by
  have lane : (indices.lane 8 i).toNat = indices.number .w8 i := toNat_lane indices .w8 i
  refine (number_ofLanes (w := .w8) _ inside).trans ?_
  simp only [lane, if_pos known]
  split
  · exact toNat_lane a .w8 _
  · exact toNat_lane b .w8 _

/-! ## Lanes of twice the width -/

section Wide

variable (wide : w ≠ .w64)

include wide

theorem bits_double : w.double.bits = 2 * w.bits := by
  cases w with
  | w64 => exact absurd rfl wide
  | _ => rfl

theorem count_double : w.double.count = w.count / 2 := by
  cases w with
  | w64 => exact absurd rfl wide
  | _ => rfl

theorem toNat_lane_double (v : V128) (i : Nat) :
    (v.lane (2 * w.bits) i).toNat = v.number w.double i := by
  rw [← toNat_lane, bits_double wide]

theorem toInt_lane_double (v : V128) (i : Nat) :
    (v.lane (2 * w.bits) i).toInt = v.signedNumber w.double i := by
  rw [← toInt_lane, bits_double wide]

/-- The lane that goes to lane `i` of a vector with wider lanes. -/
def extendedLane (w : LaneWidth) (high : Bool) (i : Nat) : Nat :=
  if high then w.double.count + i else i

theorem lane_extend (high signed : Bool) (v : V128) {i : Nat} (inside : i < w.double.count) :
    (extend w high signed v).lane (2 * w.bits) i =
      if signed then (v.lane w.bits (extendedLane w high i)).signExtend (2 * w.bits)
      else (v.lane w.bits (extendedLane w high i)).setWidth (2 * w.bits) := by
  have half : w.count / 2 = w.double.count := (count_double wide).symm
  have place : (if high then w.count / 2 else 0) + i = extendedLane w high i := by
    cases high <;> simp [extendedLane, half]
  refine (lane_ofLanes _ (half ▸ inside) (by cases w <;> decide)).trans ?_
  simp only [place]

theorem number_extend (high : Bool) (v : V128) {i : Nat} (inside : i < w.double.count) :
    (extend w high false v).number w.double i = v.number w (extendedLane w high i) := by
  rw [← toNat_lane_double wide, lane_extend wide high false v inside]
  exact (BitVec.toNat_setWidth_of_le (Nat.le_mul_of_pos_left _ (by decide))).trans
    (toNat_lane v w _)

theorem signedNumber_extend (high : Bool) (v : V128) {i : Nat} (inside : i < w.double.count) :
    (extend w high true v).signedNumber w.double i = v.signedNumber w (extendedLane w high i) := by
  rw [← toInt_lane_double wide, lane_extend wide high true v inside]
  exact (BitVec.toInt_signExtend_of_le (Nat.le_mul_of_pos_left _ (by decide))).trans
    (toInt_lane v w _)

/-- The number that is narrowed to lane `i`: those of `a` come first, then those of `b`. -/
def narrowedNumber (w : LaneWidth) (a b : V128) (i : Nat) : Int :=
  if i < w.double.count then a.signedNumber w.double i
  else b.signedNumber w.double (i - w.double.count)

theorem lane_narrow (signed : Bool) (a b : V128) {i : Nat} (inside : i < w.count) :
    (narrow w signed a b).lane w.bits i =
      BitVec.ofInt w.bits (clamp (laneRange signed w.bits) (narrowedNumber w a b i)) := by
  refine (lane_ofLanes_count _ inside).trans ?_
  simp only [toInt_lane_double wide, ← count_double wide]
  rfl

theorem signedNumber_narrow (a b : V128) {i : Nat} (inside : i < w.count) :
    (narrow w true a b).signedNumber w i =
      max (-2 ^ (w.bits - 1)) (min (2 ^ (w.bits - 1) - 1) (narrowedNumber w a b i)) := by
  have positive : (0 : Int) < 2 ^ (w.bits - 1) := Int.pow_pos (by decide)
  have range : laneRange true w.bits = (-2 ^ (w.bits - 1), 2 ^ (w.bits - 1) - 1) := by
    rw [laneRange, if_pos rfl]
    norm_cast
  rw [← toInt_lane, lane_narrow wide true a b inside, range]
  exact BitVec.toInt_ofInt_eq_self w.bits_pos (by simp only [clamp]; omega)
    (by simp only [clamp]; omega)

theorem number_narrow (a b : V128) {i : Nat} (inside : i < w.count) :
    ((narrow w false a b).number w i : Int) =
      max 0 (min (2 ^ w.bits - 1) (narrowedNumber w a b i)) := by
  have positive : (0 : Int) < 2 ^ w.bits := Int.pow_pos (by decide)
  have range : laneRange false w.bits = (0, 2 ^ w.bits - 1) := by
    rw [laneRange, if_neg (by decide)]
    norm_cast
  have least : 0 ≤ max 0 (min (2 ^ w.bits - 1) (narrowedNumber w a b i)) := by omega
  have greatest : max 0 (min (2 ^ w.bits - 1) (narrowedNumber w a b i)) < (2 ^ w.bits : Nat) := by
    push_cast
    omega
  rw [← toNat_lane, lane_narrow wide false a b inside, range, BitVec.toNat_ofInt, clamp,
    Int.emod_eq_of_lt least greatest, Int.toNat_of_nonneg least]

/-- A number that was widened keeps its value, also where it had no sign and now has room
for one. -/
theorem signedNumber_widened (high signed : Bool) (v : V128) {i : Nat}
    (inside : i < w.double.count) :
    (extend w high signed v).signedNumber w.double i =
      if signed then v.signedNumber w (extendedLane w high i)
      else (v.number w (extendedLane w high i) : Int) := by
  cases signed with
  | true => exact signedNumber_extend wide high v inside
  | false =>
      have some_bits := w.bits_pos
      have room : 2 * 2 ^ w.bits ≤ 2 ^ w.double.bits := by
        rw [bits_double wide, ← Nat.pow_succ']
        exact Nat.pow_le_pow_right (by decide) (by omega)
      have value := number_extend wide high v inside
      have small := number_lt v w (extendedLane w high i)
      rw [← toInt_lane, BitVec.toInt_eq_toNat_of_lt (by rw [toNat_lane, value]; omega),
        toNat_lane, value]
      rfl

/-- The two halves of a vector, widened, are narrowed lane by lane. -/
theorem narrowedNumber_extend (signed : Bool) (v : V128) {i : Nat} (inside : i < w.count) :
    narrowedNumber w (extend w false signed v) (extend w true signed v) i =
      if signed then v.signedNumber w i else v.number w i := by
  have halves : w.count = 2 * w.double.count := by
    rw [count_double wide]
    cases w <;> rfl
  rw [narrowedNumber]
  split
  · next low => exact signedNumber_widened wide false signed v low
  · next high =>
      have place : extendedLane w true (i - w.double.count) = i := by
        rw [extendedLane, if_pos rfl]
        omega
      rw [signedNumber_widened wide true signed v (by omega), place]

/-- Lanes that were widened fit, so narrowing gives them back. -/
theorem narrow_extend (signed : Bool) (v : V128) :
    narrow w signed (extend w false signed v) (extend w true signed v) = v := by
  refine eq_of_lanes w fun i inside => ?_
  have number := narrowedNumber_extend wide signed v inside
  cases signed with
  | true =>
      have some_bits := w.bits_pos
      have least := BitVec.le_toInt (v.lane w.bits i)
      have greatest := BitVec.toInt_lt (x := v.lane w.bits i)
      rw [toInt_lane] at least greatest
      apply BitVec.eq_of_toInt_eq
      rw [toInt_lane, toInt_lane, signedNumber_narrow wide _ _ inside, number, if_pos rfl]
      omega
  | false =>
      have below : (v.number w i : Int) < 2 ^ w.bits := by exact_mod_cast number_lt v w i
      apply BitVec.eq_of_toNat_eq
      rw [toNat_lane, toNat_lane, ← Int.natCast_inj, number_narrow wide _ _ inside, number,
        if_neg (by decide)]
      omega

end Wide

end V128

end WasmMachine
