/-
# Templates

The detail of a report may be a template: a text with directives that take their
texts from a list of arguments.  A directive is a percent sign, flags, a width, a
precision after a point, and a letter.  The width and the precision may be stars,
which stand for an argument, and a number in brackets chooses the argument that
comes next.  Arguments are texts, so a star never finds the number it wants.

Mistakes in a template are never fatal; they show in the text.
-/

import WasmMachine.Text.Quoted

namespace WasmMachine.Text.Template

/-! ## Reading templates -/

/-- The flags of a directive. -/
structure Flags where
  sharp : Bool := false
  zero : Bool := false
  plus : Bool := false
  minus : Bool := false
  space : Bool := false
  deriving DecidableEq, Repr

/-- A choice of the next argument; the first one has the number 1. -/
inductive Index
  | absent
  | malformed
  | number (n : Nat)
  deriving DecidableEq, Repr

/-- A width or a precision. -/
inductive Size
  | absent
  | number (n : Nat)
  | argument
  deriving DecidableEq, Repr

/-- A directive. It lacks its letter when the template ends too early. -/
structure Directive where
  flags : Flags
  first : Index
  width : Size
  precision : Option (Index × Size)
  last : Index
  letter : Option Char
  deriving DecidableEq, Repr

/-- A piece of a template: a character that stands for itself, or a directive. -/
inductive Piece
  | char (c : Char)
  | directive (d : Directive)
  deriving DecidableEq, Repr

/-- Decimal digits. -/
def isDigit (c : Char) : Bool := '0' ≤ c && c ≤ '9'

/-- The number that digits stand for. A number that is still over a million without
its last digit is refused. -/
def number? (digits : List Char) : Option Nat :=
  if digits.isEmpty || !digits.all isDigit then none
  else
    let n := digits.foldl (fun n c => n * 10 + (c.toNat - '0'.toNat)) 0
    if 1000000 < n / 10 then none else some n

/-- The flags at the head of a text, and what follows them. -/
def takeFlags (f : Flags) : List Char → Flags × List Char
  | '#' :: rest => takeFlags { f with sharp := true } rest
  | '0' :: rest => takeFlags { f with zero := true } rest
  | '+' :: rest => takeFlags { f with plus := true } rest
  | '-' :: rest => takeFlags { f with minus := true } rest
  | ' ' :: rest => takeFlags { f with space := true } rest
  | chars => (f, chars)

/-- The choice of an argument at the head of a text, and what follows it. A bracket
that is never closed, or closed at once at the end of the text, is passed over
alone. -/
def takeIndex : List Char → Index × List Char
  | '[' :: rest =>
      if rest == [']'] || !rest.contains ']' then (.malformed, rest)
      else
        let after := (rest.dropWhile (· ≠ ']')).drop 1
        match number? (rest.takeWhile (· ≠ ']')) with
        | some n => (.number n, after)
        | none => (.malformed, after)
  | chars => (.absent, chars)

/-- The width or precision at the head of a text, and what follows it. A number that
is refused takes the rest of the text with it. -/
def takeSize : List Char → Size × List Char
  | '*' :: rest => (.argument, rest)
  | chars =>
      let digits := chars.takeWhile isDigit
      if digits.isEmpty then (.absent, chars)
      else
        match number? digits with
        | some n => (.number n, chars.dropWhile isDigit)
        | none => (.absent, [])

/-- Whether a choice is still in force after a size: a star uses it up. -/
def inForce : Index → Size → Bool
  | .number _, .argument => false
  | .number _, _ => true
  | _, _ => false

/-- The precision at the head of a text, and what follows it. -/
def takePrecision : List Char → Option (Index × Size) × List Char
  | '.' :: rest =>
      let (index, rest) := takeIndex rest
      let (size, rest) := takeSize rest
      (some (index, size), rest)
  | chars => (none, chars)

/-- The directive whose percent sign was just read, and what follows it. An argument
may be chosen before the letter, unless a choice is in force. -/
def takeDirective (chars : List Char) : Directive × List Char :=
  let (flags, chars) := takeFlags {} chars
  let (first, chars) := takeIndex chars
  let (width, chars) := takeSize chars
  let (precision, chars) := takePrecision chars
  let chosen :=
    match precision with
    | some (index, size) => inForce index size
    | none => inForce first width
  let (last, chars) := if chosen then (.absent, chars) else takeIndex chars
  (⟨flags, first, width, precision, last, chars.head?⟩, chars.tail)

/-- The pieces of a template, of which there are at most `most`. -/
def pieces : (most : Nat) → List Char → List Piece
  | 0, _ | _, [] => []
  | most + 1, c :: rest =>
      if c = '%' then
        let (d, rest) := takeDirective rest
        .directive d :: pieces most rest
      else .char c :: pieces most rest

/-! ## Setting arguments -/

/-- How an argument is set: the flags, the least number of characters, and the most
of them that are taken from the argument. -/
structure Layout where
  flags : Flags := {}
  width : Nat := 0
  most : Option Nat := none
  deriving DecidableEq, Repr

namespace Layout

/-- Fill a text up to the width, with zeros only on the left. -/
def pad (l : Layout) (s : String) : String :=
  let missing := l.width - s.length
  if l.flags.minus then s ++ String.ofList (List.replicate missing ' ')
  else String.ofList (List.replicate missing (if l.flags.zero then '0' else ' ')) ++ s

/-- The characters that are taken from an argument. -/
def cut (l : Layout) (s : String) : String :=
  match l.most with
  | some n => String.ofList (s.toList.take n)
  | none => s

/-- An argument as it is. -/
def plain (l : Layout) (s : String) : String := l.pad (l.cut s)

/-- Whether a text can stand between back quotes: on one line, without another back
quote, a control character or a byte order mark. -/
def fitsBackQuotes (s : String) : Bool :=
  s.toList.all fun c =>
    c == '\t' || (0x20 ≤ c.toNat && c.toNat ≠ 0x60 && c.toNat ≠ 0x7f && c.toNat ≠ 0xfeff)

/-- An argument in quotes: back quotes if they are preferred and possible. -/
def inQuotes (l : Layout) (s : String) : String :=
  let text := l.cut s
  if l.flags.sharp && fitsBackQuotes text then
    let mark := String.singleton (Char.ofNat 0x60)
    l.pad (mark ++ text ++ mark)
  else if l.flags.plus then l.pad (quotedAscii text)
  else l.pad (quoted text)

/-- The bytes of an argument in hexadecimal, as many as the precision lets through.
A space sets the bytes apart, and a sharp puts a mark before each group. -/
def inHex (l : Layout) (upper : Bool) (s : String) : String :=
  let all := s.toUTF8.toList
  let bytes := (l.most.map all.take).getD all
  let digits := if l.flags.space then bytes.map hexByte else [hexBytes bytes]
  let text := " ".intercalate (digits.map ((if l.flags.sharp then "0x" else "") ++ ·))
  if bytes.isEmpty then l.pad ""
  else l.pad (if upper then text.toUpper else text)

/-- An argument under a letter that says nothing about texts. -/
def misfit (l : Layout) (letter : Char) (s : String) : String :=
  let text := if letter = 'w' && l.flags.sharp then l.pad (quoted (l.cut s)) else l.plain s
  "%!" ++ String.singleton letter ++ "(string=" ++ text ++ ")"

/-- An argument under a letter. -/
def set (l : Layout) (letter : Char) (s : String) : String :=
  match letter with
  | 's' => l.plain s
  | 'v' => if l.flags.sharp then l.pad (quoted (l.cut s)) else l.plain s
  | 'q' => l.inQuotes s
  | 'x' => l.inHex false s
  | 'X' => l.inHex true s
  | 'T' => l.plain "string"
  | letter => l.misfit letter s

end Layout

/-! ## Filling templates -/

/-- Where the arguments stand: the one that comes next, whether arguments were ever
chosen, and whether the choices of the directive were sound. -/
structure Cursor where
  next : Nat := 0
  chosen : Bool := false
  sound : Bool := true
  deriving DecidableEq, Repr

namespace Cursor

/-- Follow a choice among `count` arguments. -/
def follow (count : Nat) (c : Cursor) : Index → Cursor
  | .absent => c
  | .malformed => { c with chosen := true, sound := false }
  | .number n =>
      if 1 ≤ n ∧ n ≤ count then { c with next := n - 1, chosen := true }
      else { c with chosen := true, sound := false }

/-- Use up an argument, if there is one left. -/
def skip (count : Nat) (c : Cursor) : Cursor :=
  if c.next < count then { c with next := c.next + 1 } else c

/-- Go past a size that follows a choice. A size of digits or a point must not come
after a choice. -/
def pass (count : Nat) (c : Cursor) (index : Index) : Size → Cursor
  | .argument => c.skip count
  | .number _ => { c with sound := c.sound && !inForce index .absent }
  | .absent => c

end Cursor

/-- The cursor at the letter of a directive. -/
def Directive.advance (count : Nat) (c : Cursor) (d : Directive) : Cursor :=
  let c := (({ c with sound := true } : Cursor).follow count d.first).pass count d.first d.width
  let c :=
    match d.precision with
    | none => c
    | some (index, size) =>
        let sound := c.sound && !inForce d.first d.width
        let c := ({ c with sound := sound } : Cursor).follow count index
        if size = Size.argument then c.skip count else c
  c.follow count d.last

/-- The layout that a directive asks for. -/
def Directive.layout (d : Directive) : Layout where
  flags := d.flags
  width :=
    match d.width with
    | .number n => n
    | _ => 0
  most :=
    match d.precision with
    | none | some (_, .argument) => none
    | some (_, .number n) => some n
    | some (_, .absent) => some 0

/-- What a directive says about its stars. -/
def Directive.complaints (d : Directive) : String :=
  (if d.width = .argument then "%!(BADWIDTH)" else "")
    ++ (if d.precision.map (·.2) = some Size.argument then "%!(BADPREC)" else "")

/-- The text of a directive's letter, and the cursor after it. A percent sign takes
no argument. -/
def Directive.fill (args : List String) (c : Cursor) (d : Directive) : String × Cursor :=
  match d.letter with
  | none => ("%!(NOVERB)", c)
  | some '%' => ("%", c)
  | some letter =>
      let mark := "%!" ++ String.singleton letter
      if !c.sound then (mark ++ "(BADINDEX)", c)
      else
        match args[c.next]? with
        | none => (mark ++ "(MISSING)", c)
        | some arg => (d.layout.set letter arg, { c with next := c.next + 1 })

/-- The text of pieces, and the cursor after them. -/
def fill (args : List String) (c : Cursor) : List Piece → String × Cursor
  | [] => ("", c)
  | .char x :: rest =>
      let (text, c) := fill args c rest
      (String.singleton x ++ text, c)
  | .directive d :: rest =>
      let (own, c) := d.fill args (d.advance args.length c)
      let (text, c) := fill args c rest
      (d.complaints ++ own ++ text, c)

/-- The text of a template. Without arguments the template stands for itself,
percent signs included; arguments that are left over are listed at the end, unless
some were chosen by number. -/
def render (template : String) (args : List String) : String :=
  if args.isEmpty then template
  else
    let chars := template.toList
    let (text, c) := fill args {} (pieces chars.length chars)
    let left := args.drop c.next
    if c.chosen || left.isEmpty then text
    else text ++ "%!(EXTRA " ++ ", ".intercalate (left.map ("string=" ++ ·)) ++ ")"

end WasmMachine.Text.Template
