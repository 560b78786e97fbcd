/-
# Shortest decimals

The text of a floating point number: the fewest decimal digits that read back as
the same number, and of two such digit strings the nearer one.

`shortest` works on the exact value.  Every real strictly between the midpoints
to the two neighbouring numbers rounds to the number itself, and the midpoints do
too when the mantissa is even.  For one digit, two digits and so on it looks at
the two grid points around the value and takes the first that lies in that
interval.
-/

import WasmMachine.Numeric.Float

namespace WasmMachine

/-- A positive decimal `0.d₁d₂… · 10 ^ (exponent + 1)`: the digits as one number
that does not end in zero, and the exponent of its first digit. -/
structure Decimal where
  digits : Nat
  exponent : Int
  deriving DecidableEq, Repr

/-- The reals that round to one number, over a common denominator: the number
itself and the two ends, which belong to it when `closed`. -/
structure RoundingInterval where
  low : Nat
  value : Nat
  high : Nat
  denominator : Nat
  closed : Bool
  deriving Repr

namespace Decimal

/-- `n · 10 ^ k` as a numerator and a denominator. -/
def scaled (n : Nat) (k : Int) : Nat × Nat :=
  if 0 ≤ k then (n * 10 ^ k.toNat, 1) else (n, 10 ^ (-k).toNat)

/-- Raise `guess` to the exponent of the first decimal digit of `num / den`, when
it is at most `steps` below it. -/
def raiseExponent (num den : Nat) : Nat → Int → Int
  | 0, guess => guess
  | steps + 1, guess =>
      let (a, b) := scaled 1 (guess + 1)
      if a * den ≤ num * b then raiseExponent num den steps (guess + 1) else guess

/-- The exponent of the first decimal digit of the positive number `num / den`. -/
def leadingExponent (num den : Nat) : Int :=
  let binary : Int := num.log2 - den.log2
  raiseExponent num den 4 (binary * 30103 / 100000 - 2)

/-- Whether the grid point `c · 10 ^ k` lies in the interval. -/
def liesIn (i : RoundingInterval) (c : Nat) (k : Int) : Bool :=
  let (a, b) := scaled c k
  let point := a * i.denominator
  if i.closed then i.low * b ≤ point && point ≤ i.high * b
  else i.low * b < point && point < i.high * b

/-- Drop the zeros at the end of a digit string. -/
def dropZeros : Nat → Nat → Nat
  | 0, n => n
  | fuel + 1, n => if n != 0 && n % 10 == 0 then dropZeros fuel (n / 10) else n

/-- A grid point as a decimal. -/
def ofGrid (c : Nat) (k : Int) : Decimal :=
  ⟨dropZeros 20 c, k + ((Nat.toDigits 10 c).length : Int) - 1⟩

/-- Search the grids of `n`, `n + 1`, … digits. -/
def search (i : RoundingInterval) (first : Int) : Nat → Nat → Decimal
  | 0, _ => ofGrid (i.value / i.denominator) 0
  | fuel + 1, n =>
      let k := first - n + 1
      let (a, b) := scaled 1 k
      let below := i.value * b / (a * i.denominator)
      let fits := liesIn i below k
      let fitsAbove := liesIn i (below + 1) k
      if fits && fitsAbove then
        let twice := 2 * (i.value * b)
        let middle := (2 * below + 1) * (a * i.denominator)
        if twice < middle || (twice == middle && below % 2 == 0) then ofGrid below k
        else ofGrid (below + 1) k
      else if fits then ofGrid below k
      else if fitsAbove then ofGrid (below + 1) k
      else search i first fuel (n + 1)

end Decimal

/-- The reals that round to the finite number `mantissa · 2 ^ exponent`. Below a
power of two the neighbour is at half the distance. -/
def FloatFormat.interval (f : FloatFormat) (mantissa : Nat) (exponent : Int) : RoundingInterval :=
  let down := if mantissa == 2 ^ f.mantissaBits && f.leastExponent < exponent then 1 else 2
  let scale := (exponent - 2).toNat
  let denominator := 2 ^ (2 - exponent).toNat
  { low := (4 * mantissa - down) <<< scale
    value := (4 * mantissa) <<< scale
    high := (4 * mantissa + 2) <<< scale
    denominator
    closed := mantissa % 2 == 0 }

/-- The shortest decimal of a positive finite number. Seventeen digits always
suffice. -/
def FloatFormat.shortest (f : FloatFormat) (mantissa : Nat) (exponent : Int) : Decimal :=
  let i := f.interval mantissa exponent
  Decimal.search i (Decimal.leadingExponent i.value i.denominator) 20 1

/-- How a decimal is laid out: the exponents that are written positionally, the
least number of exponent digits, and the words for what is no number. -/
structure DecimalLayout where
  leastPositional : Int
  mostPositional : Int
  exponentDigits : Nat
  nan : String
  positiveInfinity : String
  negativeInfinity : String

/-- Values are written positionally from `0.0001` up to six digits before the
point, and with a signed exponent of at least two digits otherwise. -/
def plainLayout : DecimalLayout where
  leastPositional := -4
  mostPositional := 5
  exponentDigits := 2
  nan := "NaN"
  positiveInfinity := "+Inf"
  negativeInfinity := "-Inf"

namespace Decimal

/-- The digits as characters. -/
def chars (d : Decimal) : List Char := Nat.toDigits 10 d.digits

/-- Positional notation. -/
def positional (d : Decimal) : String :=
  let cs := d.chars
  if d.exponent < 0 then
    "0." ++ String.ofList (List.replicate (-d.exponent - 1).toNat '0' ++ cs)
  else
    let whole := d.exponent.toNat + 1
    let padded := cs ++ List.replicate (whole - cs.length) '0'
    let fraction := padded.drop whole
    String.ofList (padded.take whole)
      ++ (if fraction.isEmpty then "" else "." ++ String.ofList fraction)

/-- One digit, the others behind a point, and the exponent. -/
def scientific (layout : DecimalLayout) (d : Decimal) : String :=
  let cs := d.chars
  let power := Nat.toDigits 10 d.exponent.natAbs
  String.ofList (cs.take 1)
    ++ (if cs.length ≤ 1 then "" else "." ++ String.ofList (cs.drop 1))
    ++ (if d.exponent < 0 then "e-" else "e+")
    ++ String.ofList (List.replicate (layout.exponentDigits - power.length) '0' ++ power)

/-- The decimal in the notation that the layout chooses. -/
def text (layout : DecimalLayout) (d : Decimal) : String :=
  if layout.leastPositional ≤ d.exponent ∧ d.exponent ≤ layout.mostPositional then d.positional
  else d.scientific layout

end Decimal

/-- The text of a bit pattern. Zero keeps its sign. -/
def FloatFormat.text (f : FloatFormat) (bits : Nat) : String :=
  match f.value bits with
  | .nan => plainLayout.nan
  | .infinite negative =>
      if negative then plainLayout.negativeInfinity else plainLayout.positiveInfinity
  | .finite negative mantissa exponent =>
      (if negative then "-" else "")
        ++ (if mantissa == 0 then "0" else (f.shortest mantissa exponent).text plainLayout)

end WasmMachine
