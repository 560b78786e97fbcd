/-
# Quoted text

A text between double quotes.  The quote and the backslash are escaped by a
backslash, seven control characters have a letter of their own, the other
controls of the first block are written by two hexadecimal digits, and any
other code point that is not printable by four or eight of them.
-/

import WasmMachine.Text.Hex
import WasmMachine.Text.Printable

namespace WasmMachine.Text

/-- The letter that stands for a control character after a backslash. -/
def controlLetter? (c : Char) : Option Char :=
  match c.toNat with
  | 7 => some 'a'
  | 8 => some 'b'
  | 9 => some 't'
  | 10 => some 'n'
  | 11 => some 'v'
  | 12 => some 'f'
  | 13 => some 'r'
  | _ => none

/-- A code point that is not shown as itself. -/
def escapedChar (c : Char) : String :=
  match controlLetter? c with
  | some letter => String.ofList ['\\', letter]
  | none =>
      if c.toNat < 0x20 || c.toNat == 0x7f then "\\x" ++ hex 2 c.toNat
      else if c.toNat < 0x10000 then "\\u" ++ hex 4 c.toNat
      else "\\U" ++ hex 8 c.toNat

/-- One code point as it stands between the quotes, when those that `plain` holds of
are shown as themselves. -/
def quotedChar (plain : Char → Bool) (c : Char) : String :=
  if c == '"' || c == '\\' then String.ofList ['\\', c]
  else if plain c then String.singleton c
  else escapedChar c

/-- The text in double quotes with its escapes. -/
def quoted (s : String) : String :=
  "\"" ++ String.join (s.toList.map (quotedChar isPrintable)) ++ "\""

/-- The text in double quotes, with every code point beyond ASCII escaped. -/
def quotedAscii (s : String) : String :=
  "\"" ++ String.join (s.toList.map (quotedChar fun c => c.toNat < 0x80 && isPrintable c)) ++ "\""

end WasmMachine.Text
