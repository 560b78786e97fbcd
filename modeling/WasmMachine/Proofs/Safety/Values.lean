/-
# Values of a type

A value has a type in a store with so many functions: a reference to a function is
one of the addresses of that store, and a null reference is of a reference type.  So
the type of a value says what the value looks like, and it is never the unknown type:
where the checker accepts an operand for a wanted type, the types are the same.
-/

import WasmMachine.Proofs.Typing.Relation
import WasmMachine.Store.Basic

namespace WasmMachine

/-- A reference that a store with `n` functions gives a meaning to. -/
def Ref.Valid (n : Nat) : Ref → Prop
  | .null type => type.isRef
  | .func addr => addr < n
  | .external _ => True

/-- A value that a store with `n` functions gives a meaning to. -/
def Value.Valid (n : Nat) : Value → Prop
  | .ref r => r.Valid n
  | _ => True

/-- A value of a type in a store with `n` functions. -/
structure Value.Has (n : Nat) (v : Value) (type : ValType) : Prop where
  type : v.type = type
  valid : v.Valid n

/-- Values have types one by one. -/
abbrev Values (n : Nat) (values : List Value) (types : List ValType) : Prop :=
  List.Forall₂ (Value.Has n) values types

variable {n n' : Nat}

theorem Ref.Valid.mono {r : Ref} (valid : r.Valid n) (grows : n ≤ n') : r.Valid n' := by
  cases r with
  | null type => exact valid
  | func addr => exact Nat.lt_of_lt_of_le valid grows
  | external number => trivial

theorem Ref.Valid.isRef {r : Ref} (valid : r.Valid n) : r.type.isRef := by
  cases r with
  | null type => exact valid
  | func addr => rfl
  | external number => rfl

namespace Value

theorem Valid.mono {v : Value} (valid : v.Valid n) (grows : n ≤ n') : v.Valid n' := by
  cases v with
  | ref r => exact Ref.Valid.mono valid grows
  | _ => trivial

namespace Has

variable {v : Value} {type want : ValType}

theorem mono (has : v.Has n type) (grows : n ≤ n') : v.Has n' type :=
  ⟨has.type, has.valid.mono grows⟩

theorem i32 (bits : UInt32) : (Value.i32 bits).Has n .i32 := ⟨rfl, trivial⟩
theorem i64 (bits : UInt64) : (Value.i64 bits).Has n .i64 := ⟨rfl, trivial⟩
theorem f32 (bits : UInt32) : (Value.f32 bits).Has n .f32 := ⟨rfl, trivial⟩
theorem f64 (bits : UInt64) : (Value.f64 bits).Has n .f64 := ⟨rfl, trivial⟩
theorem v128 (bits : V128) : (Value.v128 bits).Has n .v128 := ⟨rfl, trivial⟩
theorem ofBool (b : Bool) : (Value.ofBool b).Has n .i32 := ⟨rfl, trivial⟩

/-- The type of a reference that a store gives a meaning to is a reference type. -/
theorem isRef {r : Ref} (has : (Value.ref r).Has n type) : type.isRef := by
  obtain ⟨rfl, valid⟩ := has
  exact Ref.Valid.isRef valid

theorem eq_i32 (has : v.Has n .i32) : ∃ bits, v = .i32 bits := by
  cases v with
  | i32 bits => exact ⟨bits, rfl⟩
  | ref r => exact absurd has.isRef (by decide)
  | _ => cases has.type

theorem eq_i64 (has : v.Has n .i64) : ∃ bits, v = .i64 bits := by
  cases v with
  | i64 bits => exact ⟨bits, rfl⟩
  | ref r => exact absurd has.isRef (by decide)
  | _ => cases has.type

theorem eq_f32 (has : v.Has n .f32) : ∃ bits, v = .f32 bits := by
  cases v with
  | f32 bits => exact ⟨bits, rfl⟩
  | ref r => exact absurd has.isRef (by decide)
  | _ => cases has.type

theorem eq_f64 (has : v.Has n .f64) : ∃ bits, v = .f64 bits := by
  cases v with
  | f64 bits => exact ⟨bits, rfl⟩
  | ref r => exact absurd has.isRef (by decide)
  | _ => cases has.type

theorem eq_v128 (has : v.Has n .v128) : ∃ bits, v = .v128 bits := by
  cases v with
  | v128 bits => exact ⟨bits, rfl⟩
  | ref r => exact absurd has.isRef (by decide)
  | _ => cases has.type

theorem eq_ref (has : v.Has n type) (reference : type.isRef) :
    ∃ r : Ref, v = .ref r ∧ r.Valid n ∧ r.type = type := by
  cases v with
  | ref r => exact ⟨r, rfl, has.valid, has.type⟩
  | _ =>
      rw [← has.type] at reference
      cases reference

theorem ne_unknown (has : v.Has n type) : type ≠ .unknown := by
  rintro rfl
  cases v with
  | ref r => exact absurd has.isRef (by decide)
  | _ => cases has.type

/-- An operand that is there is accepted for its own type only. -/
theorem eq_of_fits (has : v.Has n type) (fits : Typing.Fits type want) (known : want ≠ .unknown) :
    type = want := by
  rcases fits with unknown | unknown | same
  · exact absurd unknown has.ne_unknown
  · exact absurd unknown known
  · exact same

end Has

end Value

namespace Values

variable {values : List Value} {types before below : List ValType} {type : ValType}

theorem append {upper lower : List Value} (typed : Values n upper types)
    (typed' : Values n lower below) : Values n (upper ++ lower) (types ++ below) :=
  List.rel_append typed typed'

theorem reverse (typed : Values n values types) : Values n values.reverse types.reverse :=
  List.rel_reverse typed

theorem map_type (typed : Values n values types) : values.map (·.type) = types := by
  induction typed with
  | nil => rfl
  | cons has _ ih => rw [List.map_cons, has.type, ih]

theorem valid {v : Value} (typed : Values n values types) (mem : v ∈ values) : v.Valid n := by
  induction typed with
  | nil => cases mem
  | cons has _ ih =>
      rcases List.mem_cons.mp mem with rfl | mem
      · exact has.valid
      · exact ih mem

/-- The topmost value of a stack whose topmost type is known. -/
theorem exists_cons (typed : Values n values (type :: types)) :
    ∃ v rest, values = v :: rest ∧ v.Has n type ∧ Values n rest types := by
  obtain ⟨v, rest, has, typed, same⟩ := List.forall₂_cons_right_iff.mp typed
  exact ⟨v, rest, same, has, typed⟩

/-- The values that have the types in front, and the others. -/
theorem exists_append (typed : Values n values (types ++ below)) :
    ∃ upper lower, values = upper ++ lower ∧ Values n upper types ∧ Values n lower below := by
  refine ⟨values.take types.length, values.drop types.length, ?_, ?_, ?_⟩
  · rw [List.take_append_drop]
  · exact List.forall₂_take_append values types below typed
  · exact List.forall₂_drop_append values types below typed

/-- Operands that are there are accepted for their own types only. -/
theorem eq_of_accepts (typed : Values n values before) (accepted : Typing.Accepts types before)
    (known : .unknown ∉ types) : before = types.reverse := by
  have known : ∀ want ∈ types.reverse, want ≠ .unknown := by
    rintro want mem rfl
    exact known (List.mem_reverse.mp mem)
  unfold Typing.Accepts at accepted
  generalize types.reverse = wants at accepted known
  induction typed generalizing wants with
  | nil =>
      cases accepted
      rfl
  | cons has _ ih =>
      cases accepted with
      | cons fits accepted =>
          rw [has.eq_of_fits fits (known _ List.mem_cons_self)]
          exact congrArg _ (ih _ accepted fun want mem => known want (List.mem_cons_of_mem _ mem))

end Values

/-- What a list of one kind has at an index where the other list has something. -/
theorem exists_getElem?_of_forall₂ {α β : Type} {R : α → β → Prop} {as : List α} {bs : List β}
    (related : List.Forall₂ R as bs) {i : Nat} {b : β} (found : bs[i]? = some b) :
    ∃ a, as[i]? = some a ∧ R a b := by
  obtain ⟨inside, rfl⟩ := List.getElem?_eq_some_iff.mp found
  have inside' : i < as.length := related.length_eq ▸ inside
  exact ⟨as[i], List.getElem?_eq_getElem inside', related.get inside' inside⟩

/-- A variable keeps its type when a value of that type is written to it. -/
theorem Values.set {values : List Value} {types : List ValType} {type : ValType} {v : Value}
    (typed : Values n values types) {i : Nat} (found : types[i]? = some type)
    (has : v.Has n type) : Values n (values.set i v) types := by
  induction typed generalizing i with
  | nil => cases found
  | cons first rest ih =>
      cases i with
      | zero =>
          cases found
          exact .cons has rest
      | succ i => exact .cons first (ih found)

/-! ## Results -/

namespace Value

/-- The values that an embedder passes or gets have the types that are asked for. -/
theorem values_of_matchTypes {args : List (Option Value)} {types : List ValType}
    (matched : matchTypes args types = true) (valid : ∀ v, some v ∈ args → v.Valid n) :
    ∃ values, args = values.map some ∧ Values n values types := by
  fun_induction matchTypes args types with
  | case1 => exact ⟨[], rfl, .nil⟩
  | case2 v vs t ts ih =>
      rw [Bool.and_eq_true, beq_iff_eq] at matched
      obtain ⟨values, rfl, typed⟩ := ih matched.2 fun w mem => valid w (List.mem_cons_of_mem _ mem)
      exact ⟨v :: values, rfl, .cons ⟨matched.1, valid v List.mem_cons_self⟩ typed⟩
  | case3 => cases matched

theorem matchTypes_of_values {values : List Value} {types : List ValType}
    (typed : Values n values types) : matchTypes (values.map some) types = true := by
  induction typed with
  | nil => rfl
  | cons has _ ih =>
      rw [List.map_cons, matchTypes, ih, has.type, beq_self_eq_true]
      rfl

end Value

end WasmMachine
