/-
# Integer literals with a base prefix

Reading a signed 64-bit integer whose text may carry a sign, one of the base
prefixes `0b`, `0o`, `0x` (either case) or a leading zero for octal, and
underscores between a base prefix and digits or between digits.
-/

import WasmMachine.Numeric.Power

namespace WasmMachine.Text

/-- Why a text is no integer of the range. -/
inductive IntegerError
  | invalid
  | outOfRange
  deriving DecidableEq, Repr

/-- The two reasons in words. -/
def IntegerError.message : IntegerError → String
  | .invalid => "invalid syntax"
  | .outOfRange => "value out of range"

/-- The value of a digit in bases up to 36. -/
def digitValue? (c : Char) : Option Nat :=
  if '0' ≤ c ∧ c ≤ '9' then some (c.toNat - '0'.toNat)
  else if 'a' ≤ c ∧ c ≤ 'z' then some (c.toNat - 'a'.toNat + 10)
  else if 'A' ≤ c ∧ c ≤ 'Z' then some (c.toNat - 'A'.toNat + 10)
  else none

/-- Whether every underscore stands between a base prefix or a digit on its left
and a digit on its right. `afterDigit` tells whether a digit or the base prefix
came just before, `pending` whether an underscore did. -/
def underscoresOk (hexadecimal : Bool) : Bool → Bool → List Char → Bool
  | _, pending, [] => !pending
  | afterDigit, pending, c :: rest =>
      let isDigit := ('0' ≤ c && c ≤ '9') ||
        (hexadecimal && (('a' ≤ c && c ≤ 'f') || ('A' ≤ c && c ≤ 'F')))
      if isDigit then underscoresOk hexadecimal true false rest
      else if c == '_' then afterDigit && underscoresOk hexadecimal false true rest
      else !pending && underscoresOk hexadecimal false false rest

/-- The value of a digit string in `base`, skipping underscores. The first fault
from the left decides the error: a character that is no digit of the base, or
the digit that takes the value to `2 ^ 64` or beyond. -/
def valueInBase (base : Nat) : List Char → Nat → Except IntegerError Nat
  | [], value => .ok value
  | c :: rest, value =>
      if c == '_' then valueInBase base rest value
      else match digitValue? c with
        | none => .error .invalid
        | some d =>
            if base ≤ d then .error .invalid
            else if 2 ^ 64 ≤ value * base + d then .error .outOfRange
            else valueInBase base rest (value * base + d)

/-- Split a text without its sign into the base it announces, whether the base
has a letter of its own, and the digits. A lone `0` is decimal. -/
def announcedBase (digits : List Char) : Nat × Bool × List Char :=
  match digits with
  | '0' :: 'b' :: d :: rest | '0' :: 'B' :: d :: rest => (2, true, d :: rest)
  | '0' :: 'o' :: d :: rest | '0' :: 'O' :: d :: rest => (8, true, d :: rest)
  | '0' :: 'x' :: d :: rest | '0' :: 'X' :: d :: rest => (16, true, d :: rest)
  | '0' :: rest => (8, false, rest)
  | _ => (10, false, digits)

/-- Read the unsigned part. A bare leading zero announces octal and the rest may
be empty, as in `0` itself. -/
def magnitude (digits : List Char) : Except IntegerError Nat := do
  if digits.isEmpty then throw .invalid
  let (base, lettered, body) := announcedBase digits
  let value ← valueInBase base body 0
  let started := lettered || digits.head? == some '0'
  if body.contains '_' && !underscoresOk (base == 16) started false body then
    throw .invalid
  return value

/-- Read a signed 64-bit integer. -/
def parseInt64 (s : String) : Except IntegerError Int := do
  let (negative, digits) := match s.toList with
    | '-' :: rest => (true, rest)
    | '+' :: rest => (false, rest)
    | chars => (false, chars)
  let value ← magnitude digits
  if negative then
    if 2 ^ 63 < value then throw .outOfRange else return -(value : Int)
  else
    if 2 ^ 63 ≤ value then throw .outOfRange else return (value : Int)

end WasmMachine.Text
