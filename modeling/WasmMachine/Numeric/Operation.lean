/-
# Numeric operations

The instructions that turn one or two numbers into one number.  `Operation` lists
them, `Operation.ofOpcode` reads their opcodes, `Operation.operands` and
`Operation.result` give their types, and `Operation.apply` runs them on the
operands at the top of a stack, the last operand first.
-/

import WasmMachine.Trap

namespace WasmMachine.Numeric

/-- Comparisons of integers. -/
inductive IntRelation
  | eq | ne | ltS | ltU | gtS | gtU | leS | leU | geS | geU
  deriving DecidableEq, Repr

/-- Operations on one integer. -/
inductive IntUnary
  | clz | ctz | popcnt | extend8 | extend16 | extend32
  deriving DecidableEq, Repr

/-- Operations on two integers. -/
inductive IntBinary
  | add | sub | mul | divS | divU | remS | remU
  | and | or | xor | shl | shrS | shrU | rotl | rotr
  deriving DecidableEq, Repr

/-- Comparisons of floating point numbers. -/
inductive FloatRelation
  | eq | ne | lt | gt | le | ge
  deriving DecidableEq, Repr

/-- Operations on one floating point number. -/
inductive FloatUnary
  | abs | neg | ceil | floor | trunc | nearest | sqrt
  deriving DecidableEq, Repr

/-- Operations on two floating point numbers. -/
inductive FloatBinary
  | add | sub | mul | div | min | max | copysign
  deriving DecidableEq, Repr

/-- The two widths of numbers. -/
inductive Width
  | w32 | w64
  deriving DecidableEq, Repr

/-- Conversions between number types. -/
inductive Conversion
  | wrap
  | extend (signed : Bool)
  | truncate (target from_ : Width) (signed : Bool)
  | convert (target from_ : Width) (signed : Bool)
  | demote
  | promote
  | bitsOfFloat (width : Width)
  | floatOfBits (width : Width)
  deriving DecidableEq, Repr

/-- A numeric instruction. -/
inductive Operation
  | eqz (width : Width)
  | intRelation (width : Width) (op : IntRelation)
  | intUnary (width : Width) (op : IntUnary)
  | intBinary (width : Width) (op : IntBinary)
  | floatRelation (width : Width) (op : FloatRelation)
  | floatUnary (width : Width) (op : FloatUnary)
  | floatBinary (width : Width) (op : FloatBinary)
  | conversion (op : Conversion)
  deriving DecidableEq, Repr

/-- The integer type of a width. -/
def Width.int : Width → ValType
  | .w32 => .i32
  | .w64 => .i64

/-- The floating point type of a width. -/
def Width.float : Width → ValType
  | .w32 => .f32
  | .w64 => .f64

/-- The floating point format of a width. -/
def Width.format : Width → FloatFormat
  | .w32 => binary32
  | .w64 => binary64

/-- The operand and result type of a conversion. -/
def Conversion.types : Conversion → ValType × ValType
  | .wrap => (.i64, .i32)
  | .extend _ => (.i32, .i64)
  | .truncate target from_ _ => (from_.float, target.int)
  | .convert target from_ _ => (from_.int, target.float)
  | .demote => (.f64, .f32)
  | .promote => (.f32, .f64)
  | .bitsOfFloat w => (w.float, w.int)
  | .floatOfBits w => (w.int, w.float)

namespace Operation

/-- The operand types, first operand first. -/
def operands : Operation → List ValType
  | .eqz w => [w.int]
  | .intRelation w _ => [w.int, w.int]
  | .intUnary w _ => [w.int]
  | .intBinary w _ => [w.int, w.int]
  | .floatRelation w _ => [w.float, w.float]
  | .floatUnary w _ => [w.float]
  | .floatBinary w _ => [w.float, w.float]
  | .conversion c => [c.types.1]

/-- The result type. -/
def result : Operation → ValType
  | .eqz _ => .i32
  | .intRelation _ _ => .i32
  | .intUnary w _ => w.int
  | .intBinary w _ => w.int
  | .floatRelation _ _ => .i32
  | .floatUnary w _ => w.float
  | .floatBinary w _ => w.float
  | .conversion c => c.types.2

/-- The comparisons of integers in the order of their opcodes. -/
def intRelations : List IntRelation :=
  [.eq, .ne, .ltS, .ltU, .gtS, .gtU, .leS, .leU, .geS, .geU]

/-- The operations on two integers in the order of their opcodes. -/
def intBinaries : List IntBinary :=
  [.add, .sub, .mul, .divS, .divU, .remS, .remU, .and, .or, .xor, .shl, .shrS, .shrU, .rotl, .rotr]

/-- The comparisons of floats in the order of their opcodes. -/
def floatRelations : List FloatRelation := [.eq, .ne, .lt, .gt, .le, .ge]

/-- The operations on one float in the order of their opcodes. -/
def floatUnaries : List FloatUnary := [.abs, .neg, .ceil, .floor, .trunc, .nearest, .sqrt]

/-- The operations on two floats in the order of their opcodes. -/
def floatBinaries : List FloatBinary := [.add, .sub, .mul, .div, .min, .max, .copysign]

/-- All numeric instructions in the order of their opcodes, from `0x45` on. -/
def all : List Operation :=
  [.eqz .w32] ++ intRelations.map (intRelation .w32)
    ++ [.eqz .w64] ++ intRelations.map (intRelation .w64)
    ++ floatRelations.map (floatRelation .w32) ++ floatRelations.map (floatRelation .w64)
    ++ [IntUnary.clz, .ctz, .popcnt].map (intUnary .w32) ++ intBinaries.map (intBinary .w32)
    ++ [IntUnary.clz, .ctz, .popcnt].map (intUnary .w64) ++ intBinaries.map (intBinary .w64)
    ++ floatUnaries.map (floatUnary .w32) ++ floatBinaries.map (floatBinary .w32)
    ++ floatUnaries.map (floatUnary .w64) ++ floatBinaries.map (floatBinary .w64)
    ++ [Conversion.wrap,
        .truncate .w32 .w32 true, .truncate .w32 .w32 false,
        .truncate .w32 .w64 true, .truncate .w32 .w64 false,
        .extend true, .extend false,
        .truncate .w64 .w32 true, .truncate .w64 .w32 false,
        .truncate .w64 .w64 true, .truncate .w64 .w64 false,
        .convert .w32 .w32 true, .convert .w32 .w32 false,
        .convert .w32 .w64 true, .convert .w32 .w64 false,
        .demote,
        .convert .w64 .w32 true, .convert .w64 .w32 false,
        .convert .w64 .w64 true, .convert .w64 .w64 false,
        .promote,
        .bitsOfFloat .w32, .bitsOfFloat .w64, .floatOfBits .w32, .floatOfBits .w64].map conversion
    ++ [.intUnary .w32 .extend8, .intUnary .w32 .extend16,
        .intUnary .w64 .extend8, .intUnary .w64 .extend16, .intUnary .w64 .extend32]

/-- The table of numeric instructions, for look-up by position. -/
def table : Array Operation := all.toArray

/-- The numeric instruction of an opcode. -/
def ofOpcode (op : UInt8) : Option Operation :=
  if op < 0x45 then none else table[op.toNat - 0x45]?

end Operation

/-- The count of zero bits above the highest set bit; all of them for zero. -/
def leadingZeros (width n : Nat) : Nat := if n = 0 then width else width - 1 - n.log2

/-- The count of zero bits below the lowest set bit; `width` of them for zero. -/
def trailingZeros (width n : Nat) : Nat :=
  ((List.range width).find? n.testBit).getD width

/-- The count of set bits. -/
def population (width n : Nat) : Nat := (List.range width).countP n.testBit

/-- Integer comparisons, as tests on 32-bit patterns. -/
def IntRelation.holds32 (op : IntRelation) (a b : UInt32) : Bool :=
  match op with
  | .eq => a == b
  | .ne => a != b
  | .ltS => a.toInt32 < b.toInt32
  | .ltU => a < b
  | .gtS => b.toInt32 < a.toInt32
  | .gtU => b < a
  | .leS => a.toInt32 ≤ b.toInt32
  | .leU => a ≤ b
  | .geS => b.toInt32 ≤ a.toInt32
  | .geU => b ≤ a

/-- Integer comparisons, as tests on 64-bit patterns. -/
def IntRelation.holds64 (op : IntRelation) (a b : UInt64) : Bool :=
  match op with
  | .eq => a == b
  | .ne => a != b
  | .ltS => a.toInt64 < b.toInt64
  | .ltU => a < b
  | .gtS => b.toInt64 < a.toInt64
  | .gtU => b < a
  | .leS => a.toInt64 ≤ b.toInt64
  | .leU => a ≤ b
  | .geS => b.toInt64 ≤ a.toInt64
  | .geU => b ≤ a

/-- Operations on one 32-bit integer. A sign extension repeats the top bit of the
low part; the one from 32 bits changes nothing. -/
def IntUnary.apply32 (op : IntUnary) (a : UInt32) : UInt32 :=
  match op with
  | .clz => UInt32.ofNat (leadingZeros 32 a.toNat)
  | .ctz => UInt32.ofNat (trailingZeros 32 a.toNat)
  | .popcnt => UInt32.ofNat (population 32 a.toNat)
  | .extend8 => a.toInt32.toInt8.toInt32.toUInt32
  | .extend16 => a.toInt32.toInt16.toInt32.toUInt32
  | .extend32 => a

/-- Operations on one 64-bit integer. -/
def IntUnary.apply64 (op : IntUnary) (a : UInt64) : UInt64 :=
  match op with
  | .clz => UInt64.ofNat (leadingZeros 64 a.toNat)
  | .ctz => UInt64.ofNat (trailingZeros 64 a.toNat)
  | .popcnt => UInt64.ofNat (population 64 a.toNat)
  | .extend8 => a.toInt64.toInt8.toInt64.toUInt64
  | .extend16 => a.toInt64.toInt16.toInt64.toUInt64
  | .extend32 => a.toInt64.toInt32.toInt64.toUInt64

/-- Rotate a 32-bit pattern to the left, the count taken modulo 32. -/
def rotateLeft32 (a n : UInt32) : UInt32 := (a <<< (n % 32)) ||| (a >>> ((32 - n % 32) % 32))

/-- Rotate a 64-bit pattern to the left, the count taken modulo 64. -/
def rotateLeft64 (a n : UInt64) : UInt64 := (a <<< (n % 64)) ||| (a >>> ((64 - n % 64) % 64))

/-- Operations on two 32-bit integers. Division goes toward zero; the quotient of
the least number by minus one does not fit, its remainder is zero. -/
def IntBinary.apply32 (op : IntBinary) (a b : UInt32) : Except Trap UInt32 :=
  match op with
  | .add => .ok (a + b)
  | .sub => .ok (a - b)
  | .mul => .ok (a * b)
  | .divS =>
      if b == 0 then .error .divideByZero
      else if a == 0x80000000 && b == 0xffffffff then .error .integerOverflow
      else .ok (a.toInt32 / b.toInt32).toUInt32
  | .divU => if b == 0 then .error .divideByZero else .ok (a / b)
  | .remS =>
      if b == 0 then .error .divideByZero
      else if b == 0xffffffff then .ok 0
      else .ok (a.toInt32 % b.toInt32).toUInt32
  | .remU => if b == 0 then .error .divideByZero else .ok (a % b)
  | .and => .ok (a &&& b)
  | .or => .ok (a ||| b)
  | .xor => .ok (a ^^^ b)
  | .shl => .ok (a <<< (b % 32))
  | .shrS => .ok (a.toInt32 >>> (b % 32).toInt32).toUInt32
  | .shrU => .ok (a >>> (b % 32))
  | .rotl => .ok (rotateLeft32 a b)
  | .rotr => .ok (rotateLeft32 a (32 - b % 32))

/-- Operations on two 64-bit integers. -/
def IntBinary.apply64 (op : IntBinary) (a b : UInt64) : Except Trap UInt64 :=
  match op with
  | .add => .ok (a + b)
  | .sub => .ok (a - b)
  | .mul => .ok (a * b)
  | .divS =>
      if b == 0 then .error .divideByZero
      else if a == 0x8000000000000000 && b == 0xffffffffffffffff then .error .integerOverflow
      else .ok (a.toInt64 / b.toInt64).toUInt64
  | .divU => if b == 0 then .error .divideByZero else .ok (a / b)
  | .remS =>
      if b == 0 then .error .divideByZero
      else if b == 0xffffffffffffffff then .ok 0
      else .ok (a.toInt64 % b.toInt64).toUInt64
  | .remU => if b == 0 then .error .divideByZero else .ok (a % b)
  | .and => .ok (a &&& b)
  | .or => .ok (a ||| b)
  | .xor => .ok (a ^^^ b)
  | .shl => .ok (a <<< (b % 64))
  | .shrS => .ok (a.toInt64 >>> (b % 64).toInt64).toUInt64
  | .shrU => .ok (a >>> (b % 64))
  | .rotl => .ok (rotateLeft64 a b)
  | .rotr => .ok (rotateLeft64 a (64 - b % 64))

/-- Comparisons of patterns of a format. -/
def FloatRelation.holds (op : FloatRelation) (f : FloatFormat) (a b : Nat) : Bool :=
  match op with
  | .eq => f.eq a b
  | .ne => !f.eq a b
  | .lt => f.lt a b
  | .gt => f.lt b a
  | .le => f.le a b
  | .ge => f.le b a

/-- Operations on one pattern of a format. -/
def FloatUnary.apply (op : FloatUnary) (f : FloatFormat) (a : Nat) : Nat :=
  match op with
  | .abs => f.abs a
  | .neg => f.neg a
  | .ceil => f.toIntegral .up a
  | .floor => f.toIntegral .down a
  | .trunc => f.toIntegral .towardZero a
  | .nearest => f.toIntegral .nearestEven a
  | .sqrt => f.sqrt a

/-- Operations on two patterns of a format. -/
def FloatBinary.apply (op : FloatBinary) (f : FloatFormat) (a b : Nat) : Nat :=
  match op with
  | .add => f.add a b
  | .sub => f.sub a b
  | .mul => f.mul a b
  | .div => f.div a b
  | .min => f.min a b
  | .max => f.max a b
  | .copysign => f.copysign a b

/-- The nearest doubles on either side of the integers of a type, both just
outside of it. -/
def bounds : Width → Bool → Int × Int
  | .w32, true => (-2147483649, 2147483648)
  | .w32, false => (-1, 4294967296)
  | .w64, true => (-9223372036854777856, 9223372036854775808)
  | .w64, false => (-1, 18446744073709551616)

/-- The least and the greatest integer of a type. -/
def extremes : Width → Bool → Int × Int
  | .w32, true => (-2147483648, 2147483647)
  | .w32, false => (0, 4294967295)
  | .w64, true => (-9223372036854775808, 9223372036854775807)
  | .w64, false => (0, 18446744073709551615)

/-- Truncate toward zero into an integer type. A NaN is no number, and what lies
on or beyond the bounds does not fit. -/
def truncate (target : Width) (signed : Bool) : FloatValue → Except Trap Int
  | .nan => .error .invalidConversion
  | .infinite _ => .error .integerOverflow
  | v =>
      let t := v.integerPart?.getD 0
      let (low, high) := bounds target signed
      if t ≤ low ∨ high ≤ t then .error .integerOverflow else .ok t

/-- Truncate toward zero, moving what does not fit to the nearer end. A NaN
becomes zero. -/
def truncateSaturating (target : Width) (signed : Bool) : FloatValue → Int
  | .nan => 0
  | .infinite negative =>
      if negative then (extremes target signed).1 else (extremes target signed).2
  | v =>
      let t := v.integerPart?.getD 0
      let (low, high) := bounds target signed
      if t ≤ low then (extremes target signed).1
      else if high ≤ t then (extremes target signed).2
      else t

/-- An integer as a value of a width, modulo the size of the type. -/
def Width.intValue (w : Width) (n : Int) : Value :=
  match w with
  | .w32 => .i32 (UInt32.ofInt n)
  | .w64 => .i64 (UInt64.ofInt n)

/-- A float pattern as a value of a width. -/
def Width.floatValue (w : Width) (bits : Nat) : Value :=
  match w with
  | .w32 => .f32 (UInt32.ofNat bits)
  | .w64 => .f64 (UInt64.ofNat bits)

/-- An integer operand read with or without a sign. -/
def readInt (signed : Bool) : Value → Option Int
  | .i32 a => some (if signed then a.toInt32.toInt else a.toNat)
  | .i64 a => some (if signed then a.toInt64.toInt else a.toNat)
  | _ => none

/-- A conversion of one operand. An operand of another type is refused. -/
def Conversion.apply (op : Conversion) (v : Value) : Except Trap Value :=
  match op, v with
  | .wrap, .i64 a => .ok (.i32 a.toUInt32)
  | .extend true, .i32 a => .ok (.i64 a.toInt32.toInt64.toUInt64)
  | .extend false, .i32 a => .ok (.i64 a.toUInt64)
  | .truncate target .w32 signed, .f32 a => do
      return target.intValue (← Numeric.truncate target signed (binary32.value a.toNat))
  | .truncate target .w64 signed, .f64 a => do
      return target.intValue (← Numeric.truncate target signed (binary64.value a.toNat))
  | .convert target .w32 signed, .i32 a =>
      .ok (target.floatValue (target.format.ofInt (if signed then a.toInt32.toInt else a.toNat)))
  | .convert target .w64 signed, .i64 a =>
      .ok (target.floatValue (target.format.ofInt (if signed then a.toInt64.toInt else a.toNat)))
  | .demote, .f64 a => .ok (.f32 (UInt32.ofNat (binary32.ofValue (binary64.value a.toNat))))
  | .promote, .f32 a => .ok (.f64 (UInt64.ofNat (binary64.ofValue (binary32.value a.toNat))))
  | .bitsOfFloat .w32, .f32 a => .ok (.i32 a)
  | .bitsOfFloat .w64, .f64 a => .ok (.i64 a)
  | .floatOfBits .w32, .i32 a => .ok (.f32 a)
  | .floatOfBits .w64, .i64 a => .ok (.f64 a)
  | _, _ => .error .operands

/-- Run a numeric instruction on the operands at the top of a stack. Missing
operands and operands of another type are refused. -/
def Operation.apply : Operation → List Value → Except Trap (List Value)
  | .eqz .w32, .i32 a :: rest => .ok (.ofBool (a == 0) :: rest)
  | .eqz .w64, .i64 a :: rest => .ok (.ofBool (a == 0) :: rest)
  | .intRelation .w32 op, .i32 b :: .i32 a :: rest => .ok (.ofBool (op.holds32 a b) :: rest)
  | .intRelation .w64 op, .i64 b :: .i64 a :: rest => .ok (.ofBool (op.holds64 a b) :: rest)
  | .intUnary .w32 op, .i32 a :: rest => .ok (.i32 (op.apply32 a) :: rest)
  | .intUnary .w64 op, .i64 a :: rest => .ok (.i64 (op.apply64 a) :: rest)
  | .intBinary .w32 op, .i32 b :: .i32 a :: rest => do return .i32 (← op.apply32 a b) :: rest
  | .intBinary .w64 op, .i64 b :: .i64 a :: rest => do return .i64 (← op.apply64 a b) :: rest
  | .floatRelation .w32 op, .f32 b :: .f32 a :: rest =>
      .ok (.ofBool (op.holds binary32 a.toNat b.toNat) :: rest)
  | .floatRelation .w64 op, .f64 b :: .f64 a :: rest =>
      .ok (.ofBool (op.holds binary64 a.toNat b.toNat) :: rest)
  | .floatUnary .w32 op, .f32 a :: rest =>
      .ok (.f32 (UInt32.ofNat (op.apply binary32 a.toNat)) :: rest)
  | .floatUnary .w64 op, .f64 a :: rest =>
      .ok (.f64 (UInt64.ofNat (op.apply binary64 a.toNat)) :: rest)
  | .floatBinary .w32 op, .f32 b :: .f32 a :: rest =>
      .ok (.f32 (UInt32.ofNat (op.apply binary32 a.toNat b.toNat)) :: rest)
  | .floatBinary .w64 op, .f64 b :: .f64 a :: rest =>
      .ok (.f64 (UInt64.ofNat (op.apply binary64 a.toNat b.toNat)) :: rest)
  | .conversion op, a :: rest => do return (← op.apply a) :: rest
  | _, _ => .error .operands

end WasmMachine.Numeric
