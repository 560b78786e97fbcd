/-
# Floating point numbers as bit patterns

The two binary floating point formats, with every operation computed exactly on
the bits.  A finite number is `± mantissa · 2 ^ exponent`; sums, products,
quotients and roots are formed without loss (a quotient or root keeps one extra
bit that tells whether anything was cut off) and rounded once, to the nearest
number of the format and to the even mantissa on a tie.

Operations that only move or edit bits (`abs`, `neg`, `copysign`) keep the
payload of a NaN; every other operation that gives a NaN gives `quietNaN`.
-/

import WasmMachine.Numeric.Power

namespace WasmMachine

/-- A binary floating point format, by the widths of its two fields. -/
structure FloatFormat where
  mantissaBits : Nat
  exponentBits : Nat
  deriving DecidableEq, Repr

/-- What a bit pattern stands for. -/
inductive FloatValue
  | nan
  | infinite (negative : Bool)
  | finite (negative : Bool) (mantissa : Nat) (exponent : Int)
  deriving DecidableEq, Repr

/-- The value with the opposite sign. -/
def FloatValue.negate : FloatValue → FloatValue
  | .nan => .nan
  | .infinite negative => .infinite !negative
  | .finite negative mantissa exponent => .finite (!negative) mantissa exponent

/-- The integer `± mantissa`. -/
def signedInt (negative : Bool) (mantissa : Nat) : Int :=
  if negative then -(mantissa : Int) else mantissa

/-- The integer part of a finite value, toward zero. -/
def FloatValue.integerPart? : FloatValue → Option Int
  | .finite negative mantissa exponent =>
      if 0 ≤ exponent then some (signedInt negative (mantissa <<< exponent.toNat))
      else some (signedInt negative (mantissa >>> (-exponent).toNat))
  | _ => none

/-- The 32-bit format. -/
def binary32 : FloatFormat := ⟨23, 8⟩

/-- The 64-bit format. -/
def binary64 : FloatFormat := ⟨52, 11⟩

namespace FloatFormat

variable (f : FloatFormat)

/-- The number of bits of a pattern. -/
def width : Nat := f.mantissaBits + f.exponentBits + 1

/-- The weight of the sign bit. -/
def signBit : Nat := 2 ^ (f.mantissaBits + f.exponentBits)

/-- The exponent field of infinities and NaNs. -/
def topExponent : Nat := 2 ^ f.exponentBits - 1

/-- The exponent of the last mantissa bit of the smallest numbers. -/
def leastExponent : Int := 2 - 2 ^ (f.exponentBits - 1) - f.mantissaBits

/-- The pattern of positive infinity. -/
def infinity : Nat := f.topExponent * 2 ^ f.mantissaBits

/-- The NaN that arithmetic gives. -/
def quietNaN : Nat := f.infinity + 2 ^ (f.mantissaBits - 1)

/-- Whether the sign bit is set. -/
def isNegative (bits : Nat) : Bool := bits.testBit (f.mantissaBits + f.exponentBits)

/-- The pattern without its sign bit. -/
def absolute (bits : Nat) : Nat := bits % f.signBit

/-- Put a sign on a pattern that has none. -/
def withSign (negative : Bool) (bits : Nat) : Nat :=
  if negative then f.signBit + bits else bits

/-- Patterns above infinity are NaNs. -/
def isNaN (bits : Nat) : Bool := f.infinity < f.absolute bits

/-- Whether the pattern is an infinity of the given sign. -/
def isInfinite (negative : Bool) (bits : Nat) : Bool :=
  bits == f.withSign negative f.infinity

/-- Read a pattern. -/
def value (bits : Nat) : FloatValue :=
  let negative := f.isNegative bits
  let magnitude := f.absolute bits
  let exponent := magnitude / 2 ^ f.mantissaBits
  let fraction := magnitude % 2 ^ f.mantissaBits
  if exponent == f.topExponent then
    if fraction == 0 then .infinite negative else .nan
  else if exponent == 0 then .finite negative fraction f.leastExponent
  else .finite negative (2 ^ f.mantissaBits + fraction) (f.leastExponent + exponent - 1)

/-- The pattern nearest to `± mantissa · 2 ^ exponent`, ties to even. A number
past the largest finite one by half a step or more gives an infinity. -/
def round (negative : Bool) (mantissa : Nat) (exponent : Int) : Nat :=
  if mantissa == 0 then f.withSign negative 0
  else
    let length : Int := mantissa.log2 + 1
    let target := Max.max (exponent + length - (f.mantissaBits + 1)) f.leastExponent
    let kept :=
      if target ≤ exponent then mantissa <<< (exponent - target).toNat
      else
        let shift := (target - exponent).toNat
        let quotient := mantissa >>> shift
        let remainder := mantissa % 2 ^ shift
        let half := 2 ^ (shift - 1)
        if half < remainder || (remainder == half && quotient % 2 == 1) then quotient + 1
        else quotient
    let pattern := (target - f.leastExponent).toNat * 2 ^ f.mantissaBits + kept
    f.withSign negative (Nat.min pattern f.infinity)

/-- The pattern of a value of any format. -/
def ofValue : FloatValue → Nat
  | .nan => f.quietNaN
  | .infinite negative => f.withSign negative f.infinity
  | .finite negative mantissa exponent => f.round negative mantissa exponent

/-- The pattern nearest to an integer. -/
def ofInt (n : Int) : Nat := f.round (n < 0) n.natAbs 0

/-- Addition. A sum of zero is negative only when both summands are. -/
def addValues : FloatValue → FloatValue → Nat
  | .nan, _ | _, .nan => f.quietNaN
  | .infinite s, .infinite t => if s == t then f.withSign s f.infinity else f.quietNaN
  | .infinite s, _ | _, .infinite s => f.withSign s f.infinity
  | .finite s m e, .finite t n d =>
      let low := Min.min e d
      let sum := signedInt s (m <<< (e - low).toNat) + signedInt t (n <<< (d - low).toNat)
      if sum == 0 then f.withSign (s && t) 0 else f.round (sum < 0) sum.natAbs low

/-- The sum of two patterns. -/
def add (a b : Nat) : Nat := f.addValues (f.value a) (f.value b)

/-- The difference of two patterns. -/
def sub (a b : Nat) : Nat := f.addValues (f.value a) (f.value b).negate

/-- The product of two patterns. -/
def mul (a b : Nat) : Nat :=
  match f.value a, f.value b with
  | .nan, _ | _, .nan => f.quietNaN
  | .infinite s, .infinite t => f.withSign (s != t) f.infinity
  | .infinite s, .finite t m _ | .finite s m _, .infinite t =>
      if m == 0 then f.quietNaN else f.withSign (s != t) f.infinity
  | .finite s m e, .finite t n d => f.round (s != t) (m * n) (e + d)

/-- The quotient of two patterns. Enough bits are formed for one rounding, and a
last bit says whether the division left a remainder. -/
def div (a b : Nat) : Nat :=
  match f.value a, f.value b with
  | .nan, _ | _, .nan => f.quietNaN
  | .infinite _, .infinite _ => f.quietNaN
  | .infinite s, .finite t _ _ => f.withSign (s != t) f.infinity
  | .finite s _ _, .infinite t => f.withSign (s != t) 0
  | .finite s m e, .finite t n d =>
      if n == 0 then
        if m == 0 then f.quietNaN else f.withSign (s != t) f.infinity
      else
        let extra := n.log2 + f.mantissaBits + 4
        let dividend := m <<< extra
        let sticky := if dividend % n == 0 then 0 else 1
        f.round (s != t) (2 * (dividend / n) + sticky) (e - d - extra - 1)

/-- The integer square root with its remainder test, by halving an interval that
holds the root: `low ^ 2 ≤ n < high ^ 2`. -/
def rootBetween (n : Nat) : Nat → Nat → Nat → Nat
  | 0, low, _ => low
  | fuel + 1, low, high =>
      if high ≤ low + 1 then low
      else
        let middle := (low + high) / 2
        if middle * middle ≤ n then rootBetween n fuel middle high
        else rootBetween n fuel low middle

/-- The integer square root. -/
def integerRoot (n : Nat) : Nat := rootBetween n (n.log2 + 2) 0 (2 ^ (n.log2 / 2 + 1))

/-- The square root of a pattern. -/
def sqrt (a : Nat) : Nat :=
  match f.value a with
  | .nan => f.quietNaN
  | .infinite negative => if negative then f.quietNaN else a
  | .finite negative m e =>
      if m == 0 then a
      else if negative then f.quietNaN
      else
        let odd := (e % 2).toNat
        let extra := 2 * (f.mantissaBits + 3)
        let radicand := (m <<< odd) <<< extra
        let root := integerRoot radicand
        let sticky := if root * root == radicand then 0 else 1
        f.round false (2 * root + sticky) ((e - odd - extra) / 2 - 1)

/-- The ways to bring a number to an integer. -/
inductive Rounding
  | up
  | down
  | towardZero
  | nearestEven
  deriving DecidableEq, Repr

/-- Round to an integral number of the same sign. Infinities, NaNs and numbers
without fractional bits stay themselves. -/
def toIntegral (mode : Rounding) (a : Nat) : Nat :=
  match f.value a with
  | .finite negative m e =>
      if 0 ≤ e then a
      else
        let shift := (-e).toNat
        let quotient := m >>> shift
        let remainder := m % 2 ^ shift
        let half := 2 ^ (shift - 1)
        let away := match mode with
          | .up => !negative && remainder != 0
          | .down => negative && remainder != 0
          | .towardZero => false
          | .nearestEven => half < remainder || (remainder == half && quotient % 2 == 1)
        f.round negative (if away then quotient + 1 else quotient) 0
  | _ => a

/-- Clear the sign. -/
def abs (a : Nat) : Nat := f.absolute a

/-- Flip the sign. -/
def neg (a : Nat) : Nat := f.withSign (!f.isNegative a) (f.absolute a)

/-- The magnitude of `a` with the sign of `b`. -/
def copysign (a b : Nat) : Nat := f.withSign (f.isNegative b) (f.absolute a)

/-- A number that orders the patterns that are no NaNs; both zeros have 0. -/
def orderKey (a : Nat) : Int := signedInt (f.isNegative a) (f.absolute a)

/-- Equality, which no NaN satisfies. -/
def eq (a b : Nat) : Bool := !f.isNaN a && !f.isNaN b && f.orderKey a == f.orderKey b

/-- The strict order, which no NaN satisfies. -/
def lt (a b : Nat) : Bool := !f.isNaN a && !f.isNaN b && f.orderKey a < f.orderKey b

/-- The order, which no NaN satisfies. -/
def le (a b : Nat) : Bool := !f.isNaN a && !f.isNaN b && f.orderKey a ≤ f.orderKey b

/-- The smaller of two. Negative infinity wins over everything, a NaN over the
rest, and the negative zero is the smaller one. -/
def min (a b : Nat) : Nat :=
  if f.isInfinite true a || f.isInfinite true b then f.withSign true f.infinity
  else if f.isNaN a || f.isNaN b then f.quietNaN
  else if f.orderKey a == 0 && f.orderKey b == 0 then if f.isNegative a then a else b
  else if f.lt a b then a else b

/-- The larger of two. Positive infinity wins over everything, a NaN over the
rest, and the positive zero is the larger one. -/
def max (a b : Nat) : Nat :=
  if f.isInfinite false a || f.isInfinite false b then f.infinity
  else if f.isNaN a || f.isNaN b then f.quietNaN
  else if f.orderKey a == 0 && f.orderKey b == 0 then if f.isNegative a then b else a
  else if f.lt b a then a else b

end FloatFormat

end WasmMachine
