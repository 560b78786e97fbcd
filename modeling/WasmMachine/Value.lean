/-
# Values

What an operand, a local, a global or a table entry holds.  Numbers are kept as
bit patterns: whether an integer is read with a sign is a matter of the
instruction, and a NaN keeps its payload.
-/

import WasmMachine.Types
import WasmMachine.Vector.Lanes
import WasmMachine.Numeric.Decimal

namespace WasmMachine

/-- An index into one of the lists of a store. -/
abbrev Addr := Nat

/-- A reference: null of some type, a function of the store, or an opaque number
of the embedder. -/
inductive Ref
  | null (type : ValType)
  | func (addr : Addr)
  | external (number : Nat)
  deriving DecidableEq, Repr, Inhabited

namespace Ref

/-- The type of a reference. -/
def type : Ref → ValType
  | .null t => t
  | .func _ => .funcref
  | .external _ => .externref

/-- Null references. -/
def isNull : Ref → Bool
  | .null _ => true
  | _ => false

/-- A reference in words. -/
def text : Ref → String
  | .null t => "ref.null " ++ t.name
  | .func addr => "ref.func " ++ toString addr
  | .external number => "ref.extern " ++ toString number

end Ref

/-- A value. -/
inductive Value
  | i32 (bits : UInt32)
  | i64 (bits : UInt64)
  | f32 (bits : UInt32)
  | f64 (bits : UInt64)
  | v128 (bits : V128)
  | ref (reference : Ref)
  deriving DecidableEq, Repr, Inhabited

namespace Value

/-- The type of a value. -/
def type : Value → ValType
  | .i32 _ => .i32
  | .i64 _ => .i64
  | .f32 _ => .f32
  | .f64 _ => .f64
  | .v128 _ => .v128
  | .ref r => r.type

/-- A value in words: its type and its number. Vectors are written as two halves
of sixteen digits, the low half first. -/
def text : Value → String
  | .i32 bits => "i32:" ++ toString bits.toInt32.toInt
  | .i64 bits => "i64:" ++ toString bits.toInt64.toInt
  | .f32 bits => "f32:" ++ binary32.text bits.toNat
  | .f64 bits => "f64:" ++ binary64.text bits.toNat
  | .v128 bits => "v128:" ++ Text.hex 16 bits.low.toNat ++ "_" ++ Text.hex 16 bits.high.toNat
  | .ref r => r.text

/-- What a variable of a type holds before anything is written to it. -/
def zero? (t : ValType) : Option Value :=
  if t = .i32 then some (.i32 0)
  else if t = .i64 then some (.i64 0)
  else if t = .f32 then some (.f32 0)
  else if t = .f64 then some (.f64 0)
  else if t = .v128 then some (.v128 0)
  else if t.isRef then some (.ref (.null t))
  else none

/-- The truth value of a test. -/
def ofBool (b : Bool) : Value := .i32 (if b then 1 else 0)

/-- Whether a list of values, some of which may be missing, has the given types
one by one. -/
def matchTypes : List (Option Value) → List ValType → Bool
  | [], [] => true
  | some v :: vs, t :: ts => v.type == t && matchTypes vs ts
  | _, _ => false

/-- A list of values as it stands in messages. -/
def listText (vs : List (Option Value)) : String :=
  "[" ++ " ".intercalate (vs.map fun v => (v.map text).getD "<nil>") ++ "]"

end Value

end WasmMachine
