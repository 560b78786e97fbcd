/-
# The bits of a vector put together from lanes

Bit `k` of a vector is bit `k % w` of lane `k / w`.  From this one fact follow the
round trips between a vector and its lanes and between a vector and its bytes.
-/

import WasmMachine.Vector.Lanes

namespace WasmMachine.V128

theorem ofLanes_zero (w : Nat) (f : Nat → BitVec w) : ofLanes w 0 f = 0 := rfl

theorem ofLanes_succ (w n : Nat) (f : Nat → BitVec w) :
    ofLanes w (n + 1) f = ofLanes w n f ||| ((f n).setWidth 128 <<< (n * w)) := by
  simp [ofLanes, List.range_succ]

/-- Each bit comes from the lane that it lies in. -/
theorem getLsbD_ofLanes {w : Nat} (positive : 0 < w) (n : Nat) (f : Nat → BitVec w) (k : Nat) :
    (ofLanes w n f).getLsbD k =
      (decide (k < 128) && decide (k < n * w) && (f (k / w)).getLsbD (k % w)) := by
  induction n with
  | zero => simp [ofLanes_zero]
  | succ n ih =>
      rw [ofLanes_succ, BitVec.getLsbD_or, ih, BitVec.getLsbD_shiftLeft, BitVec.getLsbD_setWidth]
      rw [Nat.succ_mul]
      by_cases lower : k < n * w
      · simp [lower, Nat.lt_of_lt_of_le lower (Nat.le_add_right _ w)]
      · by_cases here : k < n * w + w
        · have quotient : k / w = n := by
            rw [Nat.div_eq_iff positive]
            omega
          have remainder : k % w = k - n * w := by
            rw [← quotient, Nat.mul_comm, ← Nat.mod_eq_sub_mul_div]
          rw [quotient, remainder]
          have inside : k - n * w < 128 ∨ ¬ k < 128 := by omega
          rcases inside with inside | outside
          · simp [lower, here, inside]
          · simp [outside]
        · have none : (f n).getLsbD (k - n * w) = false :=
            BitVec.getLsbD_of_ge _ _ (by omega)
          simp [lower, here, none]

/-- A vector is put together from its own lanes. -/
theorem ofLanes_lane {w n : Nat} (full : n * w = 128) (v : V128) :
    ofLanes w n (v.lane w) = v := by
  have positive : 0 < w := by
    rcases Nat.eq_zero_or_pos w with rfl | positive
    · simp at full
    · exact positive
  apply BitVec.eq_of_getLsbD_eq
  intro k small
  rw [getLsbD_ofLanes positive, full]
  have rebuilt : k / w * w + k % w = k := Nat.div_add_mod' k w
  simp [small, lane, rebuilt, Nat.mod_lt k positive]

theorem length_toBytes (v : V128) : v.toBytes.length = 16 := by
  simp [toBytes]

/-- A vector comes back from its bytes. -/
theorem ofBytes_toBytes (v : V128) : ofBytes v.toBytes = v := by
  have bytes : ∀ i, i < 16 → (v.toBytes.getD i 0).toBitVec = v.lane 8 i := by
    intro i inside
    simp [toBytes, inside]
  have lanes : ofBytes v.toBytes = ofLanes 8 16 (v.lane 8) := by
    apply BitVec.eq_of_getLsbD_eq
    intro k small
    rw [ofBytes, getLsbD_ofLanes (by decide), getLsbD_ofLanes (by decide), bytes _ (by omega)]
  rw [lanes, ofLanes_lane rfl]

end WasmMachine.V128
