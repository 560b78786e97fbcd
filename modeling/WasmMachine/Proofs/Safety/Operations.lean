/-
# Operations on typed operands

The numeric instructions, the vector instructions that touch no memory and the
saturating truncations give one value for operands of the types they ask for, and it
has the type they promise.  A division or a truncation may find that there is no such
value; nothing else can go wrong.
-/

import WasmMachine.Machine.Plain
import WasmMachine.Proofs.Instruction.Families
import WasmMachine.Proofs.Safety.Outcome
import WasmMachine.Proofs.Safety.Values

namespace WasmMachine

variable {n : Nat}

/-- An operation puts one value of a type on top of the operands that it leaves alone,
or it finds that there is none. -/
def Gives (n : Nat) (type : ValType) (rest : List Value) : Except Trap (List Value) → Prop
  | .ok operands => ∃ v : Value, operands = v :: rest ∧ v.Has n type
  | .error trap => trap.Expected

theorem Gives.ok {type : ValType} {rest : List Value} {v : Value} (has : v.Has n type) :
    Gives n type rest (.ok (v :: rest)) := ⟨v, rfl, has⟩

namespace Values

variable {values rest : List Value} {a b c : ValType}

theorem eq_one (typed : Values n values [a]) : ∃ x, values = [x] ∧ x.Has n a := by
  obtain ⟨x, others, rfl, has, typed⟩ := typed.exists_cons
  cases typed
  exact ⟨x, rfl, has⟩

theorem eq_two (typed : Values n values [a, b]) :
    ∃ x y, values = [x, y] ∧ x.Has n a ∧ y.Has n b := by
  obtain ⟨x, others, rfl, has, typed⟩ := typed.exists_cons
  obtain ⟨y, rfl, has'⟩ := typed.eq_one
  exact ⟨x, y, rfl, has, has'⟩

theorem eq_three (typed : Values n values [a, b, c]) :
    ∃ x y z, values = [x, y, z] ∧ x.Has n a ∧ y.Has n b ∧ z.Has n c := by
  obtain ⟨x, others, rfl, has, typed⟩ := typed.exists_cons
  obtain ⟨y, z, rfl, has', has''⟩ := typed.eq_two
  exact ⟨x, y, z, rfl, has, has', has''⟩

end Values

/-! ## Numbers -/

namespace Numeric

variable {values rest : List Value} {v : Value}

theorem Width.has_intValue (w : Width) (x : Int) : (w.intValue x).Has n w.int := by
  cases w with
  | w32 => exact .i32 _
  | w64 => exact .i64 _

theorem Width.has_floatValue (w : Width) (bits : Nat) : (w.floatValue bits).Has n w.float := by
  cases w with
  | w32 => exact .f32 _
  | w64 => exact .f64 _

theorem IntBinary.expected_apply32 {op : IntBinary} {a b : UInt32} {t : Trap}
    (stops : op.apply32 a b = .error t) : t.Expected := by
  unfold IntBinary.apply32 at stops
  split at stops
  case h_4 =>
    split at stops
    · cases stops
      exact .divideByZero
    · split at stops
      · cases stops
        exact .integerOverflow
      · cases stops
  case h_5 =>
    split at stops
    · cases stops
      exact .divideByZero
    · cases stops
  case h_6 =>
    split at stops
    · cases stops
      exact .divideByZero
    · split at stops <;> cases stops
  case h_7 =>
    split at stops
    · cases stops
      exact .divideByZero
    · cases stops
  all_goals cases stops

theorem IntBinary.expected_apply64 {op : IntBinary} {a b : UInt64} {t : Trap}
    (stops : op.apply64 a b = .error t) : t.Expected := by
  unfold IntBinary.apply64 at stops
  split at stops
  case h_4 =>
    split at stops
    · cases stops
      exact .divideByZero
    · split at stops
      · cases stops
        exact .integerOverflow
      · cases stops
  case h_5 =>
    split at stops
    · cases stops
      exact .divideByZero
    · cases stops
  case h_6 =>
    split at stops
    · cases stops
      exact .divideByZero
    · split at stops <;> cases stops
  case h_7 =>
    split at stops
    · cases stops
      exact .divideByZero
    · cases stops
  all_goals cases stops

theorem expected_truncate {target : Width} {signed : Bool} {x : FloatValue} {t : Trap}
    (stops : Numeric.truncate target signed x = .error t) : t.Expected := by
  unfold Numeric.truncate at stops
  split at stops
  · cases stops
    exact .invalidConversion
  · cases stops
    exact .integerOverflow
  · simp only at stops
    split at stops
    · cases stops
      exact .integerOverflow
    · cases stops

/-- A conversion of an operand of its type. -/
theorem Conversion.gives {c : Conversion} (has : v.Has n c.types.1) :
    Gives n c.types.2 rest (do return (← c.apply v) :: rest) := by
  cases c with
  | wrap =>
      obtain ⟨bits, rfl⟩ := has.eq_i64
      exact .ok (.i32 _)
  | extend signed =>
      obtain ⟨bits, rfl⟩ := has.eq_i32
      cases signed with
      | false => exact .ok (.i64 _)
      | true => exact .ok (.i64 _)
  | truncate target from_ signed =>
      have moved (x : FloatValue) : Gives n target.int rest
          ((do return target.intValue (← Numeric.truncate target signed x)) >>= fun v =>
            return v :: rest) := by
        cases cut : Numeric.truncate target signed x with
        | ok whole => exact .ok (target.has_intValue whole)
        | error t => exact expected_truncate cut
      cases from_ with
      | w32 =>
          obtain ⟨bits, rfl⟩ := has.eq_f32
          exact moved _
      | w64 =>
          obtain ⟨bits, rfl⟩ := has.eq_f64
          exact moved _
  | convert target from_ signed =>
      cases from_ with
      | w32 =>
          obtain ⟨bits, rfl⟩ := has.eq_i32
          exact .ok (target.has_floatValue _)
      | w64 =>
          obtain ⟨bits, rfl⟩ := has.eq_i64
          exact .ok (target.has_floatValue _)
  | demote =>
      obtain ⟨bits, rfl⟩ := has.eq_f64
      exact .ok (.f32 _)
  | promote =>
      obtain ⟨bits, rfl⟩ := has.eq_f32
      exact .ok (.f64 _)
  | bitsOfFloat w =>
      cases w with
      | w32 =>
          obtain ⟨bits, rfl⟩ := has.eq_f32
          exact .ok (.i32 _)
      | w64 =>
          obtain ⟨bits, rfl⟩ := has.eq_f64
          exact .ok (.i64 _)
  | floatOfBits w =>
      cases w with
      | w32 =>
          obtain ⟨bits, rfl⟩ := has.eq_i32
          exact .ok (.f32 _)
      | w64 =>
          obtain ⟨bits, rfl⟩ := has.eq_i64
          exact .ok (.f64 _)

/-- A numeric instruction on operands of its types. -/
theorem Operation.gives {op : Operation} (typed : Values n values op.operands.reverse) :
    Gives n op.result rest (op.apply (values ++ rest)) := by
  cases op with
  | eqz w =>
      obtain ⟨x, rfl, has⟩ := typed.eq_one
      cases w with
      | w32 =>
          obtain ⟨bits, rfl⟩ := has.eq_i32
          exact .ok (.ofBool _)
      | w64 =>
          obtain ⟨bits, rfl⟩ := has.eq_i64
          exact .ok (.ofBool _)
  | intRelation w op =>
      obtain ⟨y, x, rfl, has', has⟩ := typed.eq_two
      cases w with
      | w32 =>
          obtain ⟨a, rfl⟩ := has.eq_i32
          obtain ⟨b, rfl⟩ := has'.eq_i32
          exact .ok (.ofBool _)
      | w64 =>
          obtain ⟨a, rfl⟩ := has.eq_i64
          obtain ⟨b, rfl⟩ := has'.eq_i64
          exact .ok (.ofBool _)
  | intUnary w op =>
      obtain ⟨x, rfl, has⟩ := typed.eq_one
      cases w with
      | w32 =>
          obtain ⟨bits, rfl⟩ := has.eq_i32
          exact .ok (.i32 _)
      | w64 =>
          obtain ⟨bits, rfl⟩ := has.eq_i64
          exact .ok (.i64 _)
  | intBinary w op =>
      obtain ⟨y, x, rfl, has', has⟩ := typed.eq_two
      cases w with
      | w32 =>
          obtain ⟨a, rfl⟩ := has.eq_i32
          obtain ⟨b, rfl⟩ := has'.eq_i32
          show Gives n .i32 rest (do return .i32 (← op.apply32 a b) :: rest)
          cases found : op.apply32 a b with
          | ok bits => exact .ok (.i32 bits)
          | error t => exact IntBinary.expected_apply32 found
      | w64 =>
          obtain ⟨a, rfl⟩ := has.eq_i64
          obtain ⟨b, rfl⟩ := has'.eq_i64
          show Gives n .i64 rest (do return .i64 (← op.apply64 a b) :: rest)
          cases found : op.apply64 a b with
          | ok bits => exact .ok (.i64 bits)
          | error t => exact IntBinary.expected_apply64 found
  | floatRelation w op =>
      obtain ⟨y, x, rfl, has', has⟩ := typed.eq_two
      cases w with
      | w32 =>
          obtain ⟨a, rfl⟩ := has.eq_f32
          obtain ⟨b, rfl⟩ := has'.eq_f32
          exact .ok (.ofBool _)
      | w64 =>
          obtain ⟨a, rfl⟩ := has.eq_f64
          obtain ⟨b, rfl⟩ := has'.eq_f64
          exact .ok (.ofBool _)
  | floatUnary w op =>
      obtain ⟨x, rfl, has⟩ := typed.eq_one
      cases w with
      | w32 =>
          obtain ⟨bits, rfl⟩ := has.eq_f32
          exact .ok (.f32 _)
      | w64 =>
          obtain ⟨bits, rfl⟩ := has.eq_f64
          exact .ok (.f64 _)
  | floatBinary w op =>
      obtain ⟨y, x, rfl, has', has⟩ := typed.eq_two
      cases w with
      | w32 =>
          obtain ⟨a, rfl⟩ := has.eq_f32
          obtain ⟨b, rfl⟩ := has'.eq_f32
          exact .ok (.f32 _)
      | w64 =>
          obtain ⟨a, rfl⟩ := has.eq_f64
          obtain ⟨b, rfl⟩ := has'.eq_f64
          exact .ok (.f64 _)
  | conversion c =>
      obtain ⟨x, rfl, has⟩ := typed.eq_one
      exact Conversion.gives has

end Numeric

/-! ## Saturating truncations -/

theorem truncateOperand_gives {values rest : List Value} {to64 from64 signed : Bool}
    (typed : Values n values [if from64 then .f64 else .f32]) :
    Gives n (if to64 then .i64 else .i32) rest
      (truncateOperand to64 signed (values ++ rest)) := by
  obtain ⟨x, rfl, has⟩ := typed.eq_one
  have cut (v : FloatValue) :
      (truncateOperand.result to64 signed v).Has n (if to64 then .i64 else .i32) := by
    cases to64 with
    | false => exact .i32 _
    | true => exact .i64 _
  cases from64 with
  | false =>
      obtain ⟨bits, rfl⟩ := has.eq_f32
      exact .ok (cut _)
  | true =>
      obtain ⟨bits, rfl⟩ := has.eq_f64
      exact .ok (cut _)

/-! ## Loads and stores -/

namespace MemoryAccess

variable {op : UInt8} {a : MemoryAccess}

theorem has_decode (known : ofOpcode op = some a) (bytes : List UInt8) : (a.decode bytes).Has n a.type := by
  unfold MemoryAccess.decode
  rcases type_of_ofOpcode known with is | is | is | is
  · rw [is, if_pos rfl]
    exact .i32 _
  · rw [is, if_neg (by decide), if_pos rfl]
    exact .i64 _
  · rw [is, if_neg (by decide), if_neg (by decide), if_pos rfl]
    exact .f32 _
  · rw [is, if_neg (by decide), if_neg (by decide), if_neg (by decide)]
    exact .f64 _

theorem exists_encode {v : Value} (known : ofOpcode op = some a) (has : v.Has n a.type) :
    ∃ bytes, a.encode? v = some bytes := by
  unfold MemoryAccess.encode?
  rw [if_pos has.type]
  rcases type_of_ofOpcode known with is | is | is | is
  · rw [is] at has
    obtain ⟨bits, rfl⟩ := has.eq_i32
    exact ⟨_, rfl⟩
  · rw [is] at has
    obtain ⟨bits, rfl⟩ := has.eq_i64
    exact ⟨_, rfl⟩
  · rw [is] at has
    obtain ⟨bits, rfl⟩ := has.eq_f32
    exact ⟨_, rfl⟩
  · rw [is] at has
    obtain ⟨bits, rfl⟩ := has.eq_f64
    exact ⟨_, rfl⟩

end MemoryAccess

/-! ## Vectors -/

namespace VectorOp

theorem checkLane_eq_ok {shape : LaneShape} {lane : UInt8}
    (inside : lane.toNat < shape.width.count) : checkLane shape lane = .ok () := by
  unfold checkLane
  rw [if_neg (Nat.not_le.mpr inside)]

theorem isSome_scalarBits? {shape : LaneShape} {v : Value} (has : v.Has n shape.scalar) :
    ∃ bits, V128.scalarBits? shape v = some bits := by
  cases shape with
  | i8x16 | i16x8 | i32x4 =>
      obtain ⟨bits, rfl⟩ := has.eq_i32
      exact ⟨_, rfl⟩
  | i64x2 =>
      obtain ⟨bits, rfl⟩ := has.eq_i64
      exact ⟨_, rfl⟩
  | f32x4 =>
      obtain ⟨bits, rfl⟩ := has.eq_f32
      exact ⟨_, rfl⟩
  | f64x2 =>
      obtain ⟨bits, rfl⟩ := has.eq_f64
      exact ⟨_, rfl⟩

theorem has_extractScalar (v : V128) (shape : LaneShape) (signed : Bool) (i : Nat) :
    (v.extractScalar shape signed i).Has n shape.scalar := by
  cases shape with
  | i8x16 | i16x8 | i32x4 => exact .i32 _
  | i64x2 => exact .i64 _
  | f32x4 => exact .f32 _
  | f64x2 => exact .f64 _

variable {values rest : List Value} {op : VectorOp} {lane : UInt8} {bytes : Option V128}

/-- Every vector instruction that touches no memory gives one value. -/
theorem exists_result (lanes : op.access? = none) : ∃ type, op.signature.2 = [type] := by
  cases op with
  | load | loadExtend | loadSplat | loadZero | store => cases lanes
  | _ => exact ⟨_, rfl⟩

/-- A vector instruction that touches no memory, on operands of its types and with the
immediate that it needs. -/
theorem gives {type : ValType} (lanes : op.access? = none) (result : op.signature.2 = [type])
    (typed : Values n values op.signature.1.reverse)
    (inside : ∀ shape, op.laneShape? = some shape → lane.toNat < shape.width.count)
    (indices : op = .shuffle → bytes ≠ none) :
    Gives n type rest (op.apply lane bytes (values ++ rest)) := by
  cases op with
  | load | loadExtend | loadSplat | loadZero | store => cases lanes
  | const =>
      cases result
      cases typed
      exact .ok (.v128 _)
  | shuffle =>
      cases result
      obtain ⟨y, x, rfl, has', has⟩ := typed.eq_two
      obtain ⟨a, rfl⟩ := has.eq_v128
      obtain ⟨b, rfl⟩ := has'.eq_v128
      cases bytes with
      | none => exact absurd rfl (indices rfl)
      | some chosen => exact .ok (.v128 _)
  | splat shape =>
      cases result
      obtain ⟨x, rfl, has⟩ := typed.eq_one
      obtain ⟨bits, found⟩ := isSome_scalarBits? has
      simp only [apply, List.cons_append, found]
      exact .ok (.v128 _)
  | extract shape signed =>
      cases result
      obtain ⟨x, rfl, has⟩ := typed.eq_one
      obtain ⟨a, rfl⟩ := has.eq_v128
      simp only [apply, List.cons_append, checkLane_eq_ok (inside shape rfl)]
      exact .ok (has_extractScalar a shape signed lane.toNat)
  | replace shape =>
      cases result
      obtain ⟨x, y, rfl, has, has'⟩ := typed.eq_two
      obtain ⟨a, rfl⟩ := has'.eq_v128
      obtain ⟨bits, found⟩ := isSome_scalarBits? has
      simp only [apply, List.cons_append, checkLane_eq_ok (inside shape rfl), found]
      exact .ok (.v128 _)
  | not | extend | truncate | convert | promoteLow | demoteZero =>
      cases result
      obtain ⟨x, rfl, has⟩ := typed.eq_one
      obtain ⟨a, rfl⟩ := has.eq_v128
      exact .ok (.v128 _)
  | swizzle | and | andNot | or | xor | add | sub | narrow =>
      cases result
      obtain ⟨y, x, rfl, has', has⟩ := typed.eq_two
      obtain ⟨a, rfl⟩ := has.eq_v128
      obtain ⟨b, rfl⟩ := has'.eq_v128
      exact .ok (.v128 _)
  | bitselect =>
      cases result
      obtain ⟨z, y, x, rfl, has'', has', has⟩ := typed.eq_three
      obtain ⟨a, rfl⟩ := has.eq_v128
      obtain ⟨b, rfl⟩ := has'.eq_v128
      obtain ⟨c, rfl⟩ := has''.eq_v128
      exact .ok (.v128 _)
  | anyTrue | allTrue =>
      cases result
      obtain ⟨x, rfl, has⟩ := typed.eq_one
      obtain ⟨a, rfl⟩ := has.eq_v128
      exact .ok (.ofBool _)
  | bitmask w =>
      cases result
      obtain ⟨x, rfl, has⟩ := typed.eq_one
      obtain ⟨a, rfl⟩ := has.eq_v128
      exact .ok (.i32 _)

end VectorOp

end WasmMachine
