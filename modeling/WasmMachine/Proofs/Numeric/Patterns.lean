/-
# Integer instructions on patterns of bits

The machine has its operations on integers twice, for 32 and for 64 bits.  Here they are
given once, on patterns of any number of bits, and shown to be the same: an instruction finds
its last operand on top, and leaves there the pattern that the operation makes of the patterns
of its operands.
-/

import WasmMachine.Machine.Plain
import WasmMachine.Numeric.Power

namespace WasmMachine

namespace Numeric

/-- The number of bits. -/
def Width.bits : Width → Nat
  | .w32 => 32
  | .w64 => 64

theorem Width.bits_pos (w : Width) : 0 < w.bits := by cases w <;> decide

/-- The operand that is an integer with the given bits. -/
def Width.integer : (w : Width) → BitVec w.bits → Value
  | .w32, x => .i32 (.ofBitVec x)
  | .w64, x => .i64 (.ofBitVec x)

/-! ## Operations on two integers -/

namespace IntBinary

/-- An operation on two patterns. A count of places is taken modulo the number of bits. -/
def onBits {k : Nat} (op : IntBinary) (a b : BitVec k) : Except Trap (BitVec k) :=
  match op with
  | .add => .ok (a + b)
  | .sub => .ok (a - b)
  | .mul => .ok (a * b)
  | .divS =>
      if b = 0#k then .error .divideByZero
      else if a = .intMin k ∧ b = -1#k then .error .integerOverflow
      else .ok (a.sdiv b)
  | .divU => if b = 0#k then .error .divideByZero else .ok (a / b)
  | .remS => if b = 0#k then .error .divideByZero else .ok (a.srem b)
  | .remU => if b = 0#k then .error .divideByZero else .ok (a % b)
  | .and => .ok (a &&& b)
  | .or => .ok (a ||| b)
  | .xor => .ok (a ^^^ b)
  | .shl => .ok (a <<< (b.toNat % k))
  | .shrS => .ok (a.sshiftRight (b.toNat % k))
  | .shrU => .ok (a >>> (b.toNat % k))
  | .rotl => .ok (a.rotateLeft b.toNat)
  | .rotr => .ok (a.rotateLeft (k - b.toNat % k))

section Counts

variable {k : Nat} (a n : BitVec k)

theorem toNat_count : (n % BitVec.ofNat k k).toNat = n.toNat % k := by
  rw [BitVec.toNat_umod, BitVec.toNat_ofNat, Nat.mod_eq_of_lt Nat.lt_two_pow_self]

/-- A count that was reduced is not reduced again. -/
theorem count_mod : n % BitVec.ofNat k k % BitVec.ofNat k k = n % BitVec.ofNat k k := by
  apply BitVec.eq_of_toNat_eq
  rw [toNat_count, toNat_count, Nat.mod_mod]

/-- A count that was reduced has no sign. -/
theorem count_smod (some_bits : 0 < k) (wide : 2 * k < 2 ^ k) :
    (n % BitVec.ofNat k k).smod (BitVec.ofNat k k) = n % BitVec.ofNat k k := by
  have below : n.toNat % k < k := Nat.mod_lt _ some_bits
  have width : (BitVec.ofNat k k).toNat = k := Nat.mod_eq_of_lt Nat.lt_two_pow_self
  apply BitVec.eq_of_toInt_eq
  rw [BitVec.toInt_smod, BitVec.toInt_eq_toNat_of_lt (x := n % _) (by rw [toNat_count]; omega),
    BitVec.toInt_eq_toNat_of_lt (by rwa [width]), toNat_count, width]
  exact Int.fmod_eq_of_lt (Int.natCast_nonneg _) (Int.ofNat_lt.mpr below)

theorem shiftLeft_count :
    a <<< (n % BitVec.ofNat k k % BitVec.ofNat k k) = a <<< (n.toNat % k) := by
  rw [count_mod, BitVec.shiftLeft_eq', toNat_count]

theorem ushiftRight_count :
    a >>> (n % BitVec.ofNat k k % BitVec.ofNat k k) = a >>> (n.toNat % k) := by
  rw [count_mod, BitVec.ushiftRight_eq', toNat_count]

theorem sshiftRight_count (some_bits : 0 < k) (wide : 2 * k < 2 ^ k) :
    a.sshiftRight' ((n % BitVec.ofNat k k).smod (BitVec.ofNat k k)) =
      a.sshiftRight (n.toNat % k) := by
  rw [count_smod n some_bits wide, BitVec.sshiftRight', toNat_count]

/-- A rotation to the left is two shifts, the second of which may be by no place at all. -/
theorem rotateLeft_eq_or {places : Nat} (few : places < k) :
    a <<< places ||| a >>> ((k - places) % k) = a.rotateLeft places := by
  rw [BitVec.rotateLeft_def, Nat.mod_eq_of_lt few]
  by_cases none : places = 0
  · subst none
    rw [Nat.sub_zero, Nat.mod_self, BitVec.ushiftRight_zero, BitVec.shiftLeft_zero, BitVec.or_self,
      BitVec.ushiftRight_eq_zero (Nat.le_refl k), BitVec.or_zero]
  · rw [Nat.mod_eq_of_lt (Nat.sub_lt_self (Nat.pos_of_ne_zero none) (Nat.le_of_lt few))]

/-- Where a rotation to the right starts from, as one to the left. -/
theorem toNat_backward (some_bits : 0 < k) :
    (BitVec.ofNat k k - n % BitVec.ofNat k k).toNat = k - n.toNat % k := by
  have width : (BitVec.ofNat k k).toNat = k := Nat.mod_eq_of_lt Nat.lt_two_pow_self
  have few : n % BitVec.ofNat k k ≤ BitVec.ofNat k k := by
    rw [BitVec.le_def, toNat_count, width]
    exact Nat.le_of_lt (Nat.mod_lt _ some_bits)
  rw [BitVec.toNat_sub_of_le few, width, toNat_count]

theorem rotateLeft_count (some_bits : 0 < k) :
    a <<< (n % BitVec.ofNat k k % BitVec.ofNat k k) |||
        a >>> ((BitVec.ofNat k k - n % BitVec.ofNat k k) % BitVec.ofNat k k % BitVec.ofNat k k) =
      a.rotateLeft n.toNat := by
  rw [shiftLeft_count, ushiftRight_count, toNat_backward n some_bits,
    rotateLeft_eq_or a (Nat.mod_lt _ some_bits), BitVec.rotateLeft_mod_eq_rotateLeft]

/-- What is divided by minus one leaves nothing. -/
theorem srem_neg_one : a.srem (-1#k) = 0#k := by
  apply BitVec.eq_of_toInt_eq
  rw [BitVec.toInt_srem, BitVec.toInt_zero, BitVec.neg_one_eq_allOnes, BitVec.toInt_allOnes]
  split
  · rw [Int.tmod_neg, Int.tmod_one]
  · next none =>
      obtain rfl : k = 0 := by omega
      rw [BitVec.toInt_zero_length, Int.tmod_zero]

end Counts

theorem toBitVec_apply32 (op : IntBinary) (a b : UInt32) :
    (op.apply32 a b).map UInt32.toBitVec = op.onBits a.toBitVec b.toBitVec := by
  have zero : b == 0 ↔ b.toBitVec = 0#32 := by rw [beq_iff_eq, ← UInt32.toBitVec_inj]; rfl
  have minus : b == 0xffffffff ↔ b.toBitVec = -1#32 := by
    rw [beq_iff_eq, ← UInt32.toBitVec_inj]; rfl
  have least : a == 0x80000000 ↔ a.toBitVec = .intMin 32 := by
    rw [beq_iff_eq, ← UInt32.toBitVec_inj]; rfl
  cases op with
  | add => rfl
  | sub => rfl
  | mul => rfl
  | divS =>
      simp only [apply32, onBits, zero, Bool.and_eq_true, least, minus]
      split
      · rfl
      · split <;> rfl
  | divU =>
      simp only [apply32, onBits, zero]
      split <;> rfl
  | remS =>
      simp only [apply32, onBits, zero, minus]
      split
      · rfl
      · split
        · next minus =>
            rw [minus, srem_neg_one]
            rfl
        · rfl
  | remU =>
      simp only [apply32, onBits, zero]
      split <;> rfl
  | and => rfl
  | or => rfl
  | xor => rfl
  | shl => exact congrArg Except.ok (shiftLeft_count a.toBitVec b.toBitVec)
  | shrS =>
      exact congrArg Except.ok
        (sshiftRight_count a.toBitVec b.toBitVec (by decide) (by decide))
  | shrU => exact congrArg Except.ok (ushiftRight_count a.toBitVec b.toBitVec)
  | rotl => exact congrArg Except.ok (rotateLeft_count a.toBitVec b.toBitVec (by decide))
  | rotr =>
      refine congrArg Except.ok ((rotateLeft_count a.toBitVec _ (by decide)).trans ?_)
      exact congrArg a.toBitVec.rotateLeft (toNat_backward b.toBitVec (by decide))

theorem toBitVec_apply64 (op : IntBinary) (a b : UInt64) :
    (op.apply64 a b).map UInt64.toBitVec = op.onBits a.toBitVec b.toBitVec := by
  have zero : b == 0 ↔ b.toBitVec = 0#64 := by rw [beq_iff_eq, ← UInt64.toBitVec_inj]; rfl
  have minus : b == 0xffffffffffffffff ↔ b.toBitVec = -1#64 := by
    rw [beq_iff_eq, ← UInt64.toBitVec_inj]; rfl
  have least : a == 0x8000000000000000 ↔ a.toBitVec = .intMin 64 := by
    rw [beq_iff_eq, ← UInt64.toBitVec_inj]; rfl
  cases op with
  | add => rfl
  | sub => rfl
  | mul => rfl
  | divS =>
      simp only [apply64, onBits, zero, Bool.and_eq_true, least, minus]
      split
      · rfl
      · split <;> rfl
  | divU =>
      simp only [apply64, onBits, zero]
      split <;> rfl
  | remS =>
      simp only [apply64, onBits, zero, minus]
      split
      · rfl
      · split
        · next minus =>
            rw [minus, srem_neg_one]
            rfl
        · rfl
  | remU =>
      simp only [apply64, onBits, zero]
      split <;> rfl
  | and => rfl
  | or => rfl
  | xor => rfl
  | shl => exact congrArg Except.ok (shiftLeft_count a.toBitVec b.toBitVec)
  | shrS =>
      exact congrArg Except.ok
        (sshiftRight_count a.toBitVec b.toBitVec (by decide) (by decide))
  | shrU => exact congrArg Except.ok (ushiftRight_count a.toBitVec b.toBitVec)
  | rotl => exact congrArg Except.ok (rotateLeft_count a.toBitVec b.toBitVec (by decide))
  | rotr =>
      refine congrArg Except.ok ((rotateLeft_count a.toBitVec _ (by decide)).trans ?_)
      exact congrArg a.toBitVec.rotateLeft (toNat_backward b.toBitVec (by decide))

end IntBinary

/-! ## Operations on one integer -/

namespace IntUnary

/-- An operation on one pattern. -/
def onBits {k : Nat} (op : IntUnary) (a : BitVec k) : BitVec k :=
  match op with
  | .clz => .ofNat k (leadingZeros k a.toNat)
  | .ctz => .ofNat k (trailingZeros k a.toNat)
  | .popcnt => .ofNat k (population k a.toNat)
  | .extend8 => (a.setWidth 8).signExtend k
  | .extend16 => (a.setWidth 16).signExtend k
  | .extend32 => (a.setWidth 32).signExtend k

theorem toBitVec_apply32 (op : IntUnary) (a : UInt32) :
    (op.apply32 a).toBitVec = op.onBits a.toBitVec := by
  cases op with
  | clz => rfl
  | ctz => rfl
  | popcnt => rfl
  | extend8 =>
      rw [onBits, ← BitVec.signExtend_eq_setWidth_of_le a.toBitVec (by decide)]
      rfl
  | extend16 =>
      rw [onBits, ← BitVec.signExtend_eq_setWidth_of_le a.toBitVec (by decide)]
      rfl
  | extend32 => exact (BitVec.signExtend_eq (a.toBitVec.setWidth 32)).symm

theorem toBitVec_apply64 (op : IntUnary) (a : UInt64) :
    (op.apply64 a).toBitVec = op.onBits a.toBitVec := by
  cases op with
  | clz => rfl
  | ctz => rfl
  | popcnt => rfl
  | extend8 =>
      rw [onBits, ← BitVec.signExtend_eq_setWidth_of_le a.toBitVec (by decide)]
      rfl
  | extend16 =>
      rw [onBits, ← BitVec.signExtend_eq_setWidth_of_le a.toBitVec (by decide)]
      rfl
  | extend32 =>
      rw [onBits, ← BitVec.signExtend_eq_setWidth_of_le a.toBitVec (by decide)]
      rfl

end IntUnary

end Numeric

/-! ## Instructions -/

namespace Instruction

/-- Run on some operands, topmost first, the instruction leaves a value in their place,
whatever is below them. -/
def Leaves (i : Instruction) (operands : List Value) (v : Value) : Prop :=
  ∀ (options : Options) (rest : List Value) (frame : Option Frame) (store : Store),
    Step.plain options i ⟨operands ++ rest, frame, store⟩ = .ok () ⟨v :: rest, frame, store⟩

/-- Run on some operands, topmost first, the instruction traps. -/
def TrapsOn (i : Instruction) (operands : List Value) (t : Trap) : Prop :=
  ∀ (options : Options) (rest : List Value) (frame : Option Frame) (store : Store),
    ∃ s', Step.plain options i ⟨operands ++ rest, frame, store⟩ = .error t s'

variable {i : Instruction} {operands : List Value}

/-- What an instruction does with some operands when that is all in an operation on them. -/
def Computes (i : Instruction) (operands : List Value) (answer : Except Trap Value) : Prop :=
  ∀ (options : Options) (rest : List Value) (frame : Option Frame) (store : Store),
    Step.plain options i ⟨operands ++ rest, frame, store⟩ =
      match answer with
      | .ok v => .ok () ⟨v :: rest, frame, store⟩
      | .error t => .error t ⟨operands ++ rest, frame, store⟩

theorem Computes.leaves {v : Value} (computes : i.Computes operands (.ok v)) :
    i.Leaves operands v := computes

theorem Computes.trapsOn_iff {answer : Except Trap Value} (computes : i.Computes operands answer)
    (t : Trap) : i.TrapsOn operands t ↔ answer = .error t := by
  constructor
  · intro traps
    obtain ⟨s', stopped⟩ := traps {} [] none {}
    have ran := (computes {} [] none {}).symm.trans stopped
    cases answer with
    | ok v => cases ran
    | error t' =>
        cases ran
        rfl
  · rintro rfl options rest frame store
    exact ⟨_, computes options rest frame store⟩

/-- The form in which a result becomes a value does not matter. -/
theorem Computes.trapsOn_map_iff {α : Type} {answer : Except Trap α} {form : α → Value}
    (computes : i.Computes operands (answer.map form)) (t : Trap) :
    i.TrapsOn operands t ↔ answer = .error t := by
  rw [computes.trapsOn_iff]
  cases answer with
  | ok r => exact iff_of_false (fun same => by cases same) fun same => by cases same
  | error t' => simp only [Except.map, Except.error.injEq]

theorem computes_of_numeric {operation : Numeric.Operation} {answer : Except Trap Value}
    (known : Numeric.Operation.ofOpcode i.opcode = some operation)
    (applied : ∀ rest, operation.apply (operands ++ rest) = answer.map (· :: rest)) :
    i.Computes operands answer := by
  intro options rest frame store
  have run : Step.plain options i = Step.onOperands operation.apply := by
    unfold Step.plain
    simp only [known]
  rw [run]
  simp only [Step.onOperands, applied rest]
  cases answer <;> rfl

end Instruction

namespace Numeric

/-- Two integers as operands, the second on top. -/
def Width.pair (w : Width) (a b : BitVec w.bits) : List Value := [w.integer b, w.integer a]

/-- The opcode of an operation on two integers, as the binary format has it. -/
def IntBinary.opcode : Width → IntBinary → UInt8
  | .w32, .add => 0x6a
  | .w32, .sub => 0x6b
  | .w32, .mul => 0x6c
  | .w32, .divS => 0x6d
  | .w32, .divU => 0x6e
  | .w32, .remS => 0x6f
  | .w32, .remU => 0x70
  | .w32, .and => 0x71
  | .w32, .or => 0x72
  | .w32, .xor => 0x73
  | .w32, .shl => 0x74
  | .w32, .shrS => 0x75
  | .w32, .shrU => 0x76
  | .w32, .rotl => 0x77
  | .w32, .rotr => 0x78
  | .w64, .add => 0x7c
  | .w64, .sub => 0x7d
  | .w64, .mul => 0x7e
  | .w64, .divS => 0x7f
  | .w64, .divU => 0x80
  | .w64, .remS => 0x81
  | .w64, .remU => 0x82
  | .w64, .and => 0x83
  | .w64, .or => 0x84
  | .w64, .xor => 0x85
  | .w64, .shl => 0x86
  | .w64, .shrS => 0x87
  | .w64, .shrU => 0x88
  | .w64, .rotl => 0x89
  | .w64, .rotr => 0x8a

/-- The machine has the operation at that place of its table. -/
theorem IntBinary.ofOpcode_opcode (w : Width) (op : IntBinary) :
    Operation.ofOpcode (op.opcode w) = some (.intBinary w op) := by
  cases w <;> cases op <;> decide +kernel

theorem IntBinary.apply_pair (w : Width) (op : IntBinary) (a b : BitVec w.bits)
    (rest : List Value) :
    (Operation.intBinary w op).apply (w.pair a b ++ rest) =
      ((op.onBits a b).map w.integer).map (· :: rest) := by
  cases w with
  | w32 =>
      have same : (op.apply32 ⟨a⟩ ⟨b⟩).map UInt32.toBitVec = op.onBits a b :=
        op.toBitVec_apply32 ⟨a⟩ ⟨b⟩
      rw [← same]
      show (do return Value.i32 (← op.apply32 ⟨a⟩ ⟨b⟩) :: rest) = _
      cases op.apply32 ⟨a⟩ ⟨b⟩ <;> rfl
  | w64 =>
      have same : (op.apply64 ⟨a⟩ ⟨b⟩).map UInt64.toBitVec = op.onBits a b :=
        op.toBitVec_apply64 ⟨a⟩ ⟨b⟩
      rw [← same]
      show (do return Value.i64 (← op.apply64 ⟨a⟩ ⟨b⟩) :: rest) = _
      cases op.apply64 ⟨a⟩ ⟨b⟩ <;> rfl

section Binary

variable {w : Width} {op : IntBinary} {i : Instruction} {a b : BitVec w.bits}

theorem IntBinary.computes (known : i.opcode = op.opcode w) (a b : BitVec w.bits) :
    i.Computes (w.pair a b) ((op.onBits a b).map w.integer) :=
  Instruction.computes_of_numeric (known ▸ op.ofOpcode_opcode w) (op.apply_pair w a b)

theorem IntBinary.leaves (known : i.opcode = op.opcode w) {r : BitVec w.bits}
    (run : op.onBits a b = .ok r) : i.Leaves (w.pair a b) (w.integer r) := by
  have computes := computes known a b
  rw [run] at computes
  exact computes.leaves

theorem IntBinary.trapsOn_iff (known : i.opcode = op.opcode w) (t : Trap) :
    i.TrapsOn (w.pair a b) t ↔ op.onBits a b = .error t :=
  (computes known a b).trapsOn_map_iff t

end Binary

/-- The opcode of an operation on one integer. There is nothing to extend to 32 bits from. -/
def IntUnary.opcode? : Width → IntUnary → Option UInt8
  | .w32, .clz => some 0x67
  | .w32, .ctz => some 0x68
  | .w32, .popcnt => some 0x69
  | .w32, .extend8 => some 0xc0
  | .w32, .extend16 => some 0xc1
  | .w32, .extend32 => none
  | .w64, .clz => some 0x79
  | .w64, .ctz => some 0x7a
  | .w64, .popcnt => some 0x7b
  | .w64, .extend8 => some 0xc2
  | .w64, .extend16 => some 0xc3
  | .w64, .extend32 => some 0xc4

theorem IntUnary.ofOpcode_of_opcode? {w : Width} {op : IntUnary} {code : UInt8}
    (known : op.opcode? w = some code) : Operation.ofOpcode code = some (.intUnary w op) := by
  cases w <;> cases op <;> cases known <;> decide +kernel

theorem IntUnary.leaves {w : Width} {op : IntUnary} {i : Instruction}
    (known : op.opcode? w = some i.opcode) (a : BitVec w.bits) :
    i.Leaves [w.integer a] (w.integer (op.onBits a)) := by
  apply Instruction.Computes.leaves
  refine Instruction.computes_of_numeric (ofOpcode_of_opcode? known) ?_
  intro rest
  cases w with
  | w32 =>
      have same : (op.apply32 ⟨a⟩).toBitVec = op.onBits a := op.toBitVec_apply32 ⟨a⟩
      rw [← same]
      rfl
  | w64 =>
      have same : (op.apply64 ⟨a⟩).toBitVec = op.onBits a := op.toBitVec_apply64 ⟨a⟩
      rw [← same]
      rfl

end Numeric

end WasmMachine
