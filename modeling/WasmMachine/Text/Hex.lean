/-
# Hexadecimal digits

Numbers and bytes written in lower-case hexadecimal.  A width is a minimum: a
number with more digits is written in full, so an opcode of one byte always has
two digits while a longer code keeps all of its own.
-/

namespace WasmMachine.Text

/-- The lower-case digit of a value below sixteen; larger values give `f`. -/
def hexDigit (d : Nat) : Char :=
  "0123456789abcdef".toList.getD d 'f'

/-- The digits of `n`, most significant first, with no leading zero. Zero has
one digit. -/
def hexDigits (n : Nat) : List Char :=
  Nat.toDigits 16 n

/-- `n` in hexadecimal with zeros in front up to `width` digits. -/
def hex (width n : Nat) : String :=
  let digits := hexDigits n
  String.ofList (List.replicate (width - digits.length) '0' ++ digits)

/-- A byte always takes two digits. -/
def hexByte (b : UInt8) : String :=
  String.ofList [hexDigit (b.toNat / 16), hexDigit (b.toNat % 16)]

/-- A byte string takes two digits a byte, in order. -/
def hexBytes (bytes : List UInt8) : String :=
  String.ofList (bytes.flatMap fun b => [hexDigit (b.toNat / 16), hexDigit (b.toNat % 16)])

/-- The value of a hexadecimal digit of either case. -/
def hexValue? (c : Char) : Option Nat :=
  if '0' ≤ c ∧ c ≤ '9' then some (c.toNat - '0'.toNat)
  else if 'a' ≤ c ∧ c ≤ 'f' then some (c.toNat - 'a'.toNat + 10)
  else if 'A' ≤ c ∧ c ≤ 'F' then some (c.toNat - 'A'.toNat + 10)
  else none

/-- Read back a text of digit pairs. An odd digit out or a foreign character is
refused. -/
def bytesOfHexDigits? : List Char → Option (List UInt8)
  | [] => some []
  | [_] => none
  | hi :: lo :: rest => do
      let h ← hexValue? hi
      let l ← hexValue? lo
      let tail ← bytesOfHexDigits? rest
      return UInt8.ofNat (16 * h + l) :: tail

end WasmMachine.Text
