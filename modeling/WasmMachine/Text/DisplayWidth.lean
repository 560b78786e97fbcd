/-
# Display width

How many columns of a terminal a line of text takes.  Control characters and
escape sequences take none.  Everything else is taken cluster by cluster: most
clusters take the columns of their code points, where East Asian wide ones count
two and combining marks nothing; a flag takes two columns; and a pictograph takes
one or two however many others are joined to it.
-/

import WasmMachine.Text.GraphemeClass

namespace WasmMachine.Text

/-- Code points that take two columns. -/
def wideRanges : Ranges := [
  (0x1100, 0x115f), (0x231a, 0x231b), (0x2329, 0x232a), (0x23e9, 0x23ec), (0x23f0, 0x23f0),
  (0x23f3, 0x23f3), (0x25fd, 0x25fe), (0x2614, 0x2615), (0x2648, 0x2653), (0x267f, 0x267f),
  (0x2693, 0x2693), (0x26a1, 0x26a1), (0x26aa, 0x26ab), (0x26bd, 0x26be), (0x26c4, 0x26c5),
  (0x26ce, 0x26ce), (0x26d4, 0x26d4), (0x26ea, 0x26ea), (0x26f2, 0x26f3), (0x26f5, 0x26f5),
  (0x26fa, 0x26fa), (0x26fd, 0x26fd), (0x2705, 0x2705), (0x270a, 0x270b), (0x2728, 0x2728),
  (0x274c, 0x274c), (0x274e, 0x274e), (0x2753, 0x2755), (0x2757, 0x2757), (0x2795, 0x2797),
  (0x27b0, 0x27b0), (0x27bf, 0x27bf), (0x2b1b, 0x2b1c), (0x2b50, 0x2b50), (0x2b55, 0x2b55),
  (0x2e80, 0x2e99), (0x2e9b, 0x2ef3), (0x2f00, 0x2fd5), (0x2ff0, 0x2ffb), (0x3000, 0x303e),
  (0x3041, 0x3096), (0x3099, 0x30ff), (0x3105, 0x312f), (0x3131, 0x318e), (0x3190, 0x31e3),
  (0x31f0, 0x321e), (0x3220, 0x3247), (0x3250, 0x4dbf), (0x4e00, 0xa48c), (0xa490, 0xa4c6),
  (0xa960, 0xa97c), (0xac00, 0xd7a3), (0xf900, 0xfaff), (0xfe10, 0xfe19), (0xfe30, 0xfe52),
  (0xfe54, 0xfe66), (0xfe68, 0xfe6b), (0xff01, 0xff60), (0xffe0, 0xffe6), (0x16fe0, 0x16fe4),
  (0x16ff0, 0x16ff1), (0x17000, 0x187f7), (0x18800, 0x18cd5), (0x18d00, 0x18d08),
  (0x1aff0, 0x1aff3), (0x1aff5, 0x1affb), (0x1affd, 0x1affe), (0x1b000, 0x1b122),
  (0x1b132, 0x1b132), (0x1b150, 0x1b152), (0x1b155, 0x1b155), (0x1b164, 0x1b167),
  (0x1b170, 0x1b2fb), (0x1f004, 0x1f004), (0x1f0cf, 0x1f0cf), (0x1f18e, 0x1f18e),
  (0x1f191, 0x1f19a), (0x1f200, 0x1f202), (0x1f210, 0x1f23b), (0x1f240, 0x1f248),
  (0x1f250, 0x1f251), (0x1f260, 0x1f265), (0x1f300, 0x1f320), (0x1f32d, 0x1f335),
  (0x1f337, 0x1f37c), (0x1f37e, 0x1f393), (0x1f3a0, 0x1f3ca), (0x1f3cf, 0x1f3d3),
  (0x1f3e0, 0x1f3f0), (0x1f3f4, 0x1f3f4), (0x1f3f8, 0x1f43e), (0x1f440, 0x1f440),
  (0x1f442, 0x1f4fc), (0x1f4ff, 0x1f53d), (0x1f54b, 0x1f54e), (0x1f550, 0x1f567),
  (0x1f57a, 0x1f57a), (0x1f595, 0x1f596), (0x1f5a4, 0x1f5a4), (0x1f5fb, 0x1f64f),
  (0x1f680, 0x1f6c5), (0x1f6cc, 0x1f6cc), (0x1f6d0, 0x1f6d2), (0x1f6d5, 0x1f6d7),
  (0x1f6dc, 0x1f6df), (0x1f6eb, 0x1f6ec), (0x1f6f4, 0x1f6fc), (0x1f7e0, 0x1f7eb),
  (0x1f7f0, 0x1f7f0), (0x1f90c, 0x1f93a), (0x1f93c, 0x1f945), (0x1f947, 0x1f9ff),
  (0x1fa70, 0x1fa7c), (0x1fa80, 0x1fa88), (0x1fa90, 0x1fabd), (0x1fabf, 0x1fac5),
  (0x1face, 0x1fadb), (0x1fae0, 0x1fae8), (0x1faf0, 0x1faf8), (0x20000, 0x2fffd),
  (0x30000, 0x3fffd)]

/-- Pictographs that are shown in colour by themselves. -/
def emojiRanges : Ranges := [
  (0x231a, 0x231b), (0x23e9, 0x23ec), (0x23f0, 0x23f0), (0x23f3, 0x23f3), (0x25fd, 0x25fe),
  (0x2614, 0x2615), (0x2648, 0x2653), (0x267f, 0x267f), (0x2693, 0x2693), (0x26a1, 0x26a1),
  (0x26aa, 0x26ab), (0x26bd, 0x26be), (0x26c4, 0x26c5), (0x26ce, 0x26ce), (0x26d4, 0x26d4),
  (0x26ea, 0x26ea), (0x26f2, 0x26f3), (0x26f5, 0x26f5), (0x26fa, 0x26fa), (0x26fd, 0x26fd),
  (0x2705, 0x2705), (0x270a, 0x270b), (0x2728, 0x2728), (0x274c, 0x274c), (0x274e, 0x274e),
  (0x2753, 0x2755), (0x2757, 0x2757), (0x2795, 0x2797), (0x27b0, 0x27b0), (0x27bf, 0x27bf),
  (0x2b1b, 0x2b1c), (0x2b50, 0x2b50), (0x2b55, 0x2b55), (0x1f004, 0x1f004), (0x1f0cf, 0x1f0cf),
  (0x1f18e, 0x1f18e), (0x1f191, 0x1f19a), (0x1f1e6, 0x1f1ff), (0x1f201, 0x1f201),
  (0x1f21a, 0x1f21a), (0x1f22f, 0x1f22f), (0x1f232, 0x1f236), (0x1f238, 0x1f23a),
  (0x1f250, 0x1f251), (0x1f300, 0x1f320), (0x1f32d, 0x1f335), (0x1f337, 0x1f37c),
  (0x1f37e, 0x1f393), (0x1f3a0, 0x1f3ca), (0x1f3cf, 0x1f3d3), (0x1f3e0, 0x1f3f0),
  (0x1f3f4, 0x1f3f4), (0x1f3f8, 0x1f43e), (0x1f440, 0x1f440), (0x1f442, 0x1f4fc),
  (0x1f4ff, 0x1f53d), (0x1f54b, 0x1f54e), (0x1f550, 0x1f567), (0x1f57a, 0x1f57a),
  (0x1f595, 0x1f596), (0x1f5a4, 0x1f5a4), (0x1f5fb, 0x1f64f), (0x1f680, 0x1f6c5),
  (0x1f6cc, 0x1f6cc), (0x1f6d0, 0x1f6d2), (0x1f6d5, 0x1f6d7), (0x1f6dc, 0x1f6df),
  (0x1f6eb, 0x1f6ec), (0x1f6f4, 0x1f6fc), (0x1f7e0, 0x1f7eb), (0x1f7f0, 0x1f7f0),
  (0x1f90c, 0x1f93a), (0x1f93c, 0x1f945), (0x1f947, 0x1f9ff), (0x1fa70, 0x1fa7c),
  (0x1fa80, 0x1fa88), (0x1fa90, 0x1fabd), (0x1fabf, 0x1fac5), (0x1face, 0x1fadb),
  (0x1fae0, 0x1fae8), (0x1faf0, 0x1faf8)]

/-- The columns that a code point of a class takes by itself. Two dashes are wider
than any other sign. -/
def columns (cls : GraphemeClass) (c : Char) : Nat :=
  match cls with
  | .control | .extend | .joiner => 0
  | .regional => 2
  | .pictograph => if emojiRanges.holds c.toNat then 2 else 1
  | _ =>
      match c.toNat with
      | 0x2e3a => 3
      | 0x2e3b => 4
      | n => if wideRanges.holds n then 2 else 1

/-- What an unfinished cluster may still take in. -/
inductive ClusterState
  | plain
  | closed
  | prepended
  | leading
  | vowel
  | trailing
  | pictograph
  | joinedPictograph
  | halfFlag
  | flag
  deriving DecidableEq, Repr

namespace ClusterState

/-- The state after a code point that no earlier one bears on. -/
def ofClass : GraphemeClass → ClusterState
  | .control => .closed
  | .prepend => .prepended
  | .leading => .leading
  | .vowel | .openSyllable => .vowel
  | .trailing | .closedSyllable => .trailing
  | .pictograph => .pictograph
  | .regional => .halfFlag
  | .other | .extend | .joiner | .spacing => .plain

/-- The state after one more code point, if that code point belongs to the
cluster. -/
def take? : ClusterState → GraphemeClass → Option ClusterState
  | .closed, _ | _, .control => none
  | .pictograph, .extend => some .pictograph
  | .pictograph, .joiner => some .joinedPictograph
  | _, .extend | _, .joiner | _, .spacing => some .plain
  | .prepended, cls => some (ofClass cls)
  | .leading, .leading => some .leading
  | .leading, .vowel | .leading, .openSyllable | .vowel, .vowel => some .vowel
  | .leading, .closedSyllable | .vowel, .trailing | .trailing, .trailing => some .trailing
  | .joinedPictograph, .pictograph => some .pictograph
  | .halfFlag, .regional => some .flag
  | _, _ => none

end ClusterState

/-- The columns of a cluster after one more code point. Selectors choose between
the two forms of a pictograph; flags and syllables that start with a leading
consonant keep the width of their first code point. -/
def widen (first : GraphemeClass) (width : Nat) (cls : GraphemeClass) (c : Char) : Nat :=
  match first with
  | .pictograph => if c.toNat == 0xfe0e then 1 else if c.toNat == 0xfe0f then 2 else width
  | .regional | .leading => width
  | _ => width + columns cls c

/-- The columns of the cluster that `width` columns of are known, and what follows
it. -/
def clusterRest (first : GraphemeClass) : ClusterState → Nat → List Char → Nat × List Char
  | _, width, [] => (width, [])
  | state, width, c :: rest =>
      let cls := graphemeClass c
      match state.take? cls with
      | some next => clusterRest first next (widen first width cls c) rest
      | none => (width, c :: rest)

/-- A cluster ends within the text it starts in. -/
theorem clusterRest_length_le (first : GraphemeClass) (state : ClusterState) (width : Nat)
    (text : List Char) : (clusterRest first state width text).2.length ≤ text.length := by
  induction text generalizing state width with
  | nil => simp [clusterRest]
  | cons c rest ih =>
      simp only [clusterRest]
      split
      · exact Nat.le_trans (ih _ _) (Nat.le_succ _)
      · exact Nat.le_refl _

/-- Where a terminal stands between two bytes: in text, in an escape sequence, in a
control sequence, in the head of a device control string, or in the data of such a
string, of a command or of a message. The middle of a sequence is what follows its
first blank or punctuation sign. -/
inductive TerminalState
  | text
  | escape
  | escapeMiddle
  | sequence
  | sequenceMiddle
  | deviceHead
  | deviceParameters
  | deviceMiddle
  | device
  | command
  | message
  deriving DecidableEq, Repr

namespace TerminalState

/-- Whether every byte from 128 on is data, up to the one that ends a string. -/
def holdsBytes (state : TerminalState) : Bool := state == .device || state == .command

/-- The terminal after a byte from 128 on. Some of them begin a sequence or a
string; bytes of data are passed over. -/
def afterHigh (state : TerminalState) (n : Nat) : TerminalState :=
  if state.holdsBytes then
    if n == 0x9c then .text else state
  else
    match n with
    | 0x90 => .deviceHead
    | 0x98 | 0x9e | 0x9f => .message
    | 0x9b => .sequence
    | 0x9d => .command
    | _ => .text

/-- The terminal after a byte from 32 to 126 inside an escape sequence. -/
def afterEscape (n : Nat) : TerminalState :=
  if n < 0x30 then .escapeMiddle
  else
    match Char.ofNat n with
    | '[' => .sequence
    | ']' => .command
    | 'P' => .deviceHead
    | 'X' | '^' | '_' => .message
    | _ => .text

/-- The terminal after a byte from 32 to 126. -/
def afterSign (state : TerminalState) (n : Nat) : TerminalState :=
  match state with
  | .text => .text
  | .escape => afterEscape n
  | .escapeMiddle => if n < 0x30 then .escapeMiddle else .text
  | .sequence => if n < 0x30 then .sequenceMiddle else if n < 0x40 then .sequence else .text
  | .sequenceMiddle => if n < 0x30 then .sequenceMiddle else .text
  | .deviceHead | .deviceParameters =>
      if n < 0x30 then .deviceMiddle else if n < 0x40 then .deviceParameters else .device
  | .deviceMiddle => if n < 0x30 then .deviceMiddle else .device
  | .device => .device
  | .command => .command
  | .message => .message

/-- The terminal after a control character. Escape restarts, and cancel and
substitute give up, whatever was begun; but an escape or a format effector right at
the head of a device control string is the first of its data. A bell ends a
command. -/
def afterControl (state : TerminalState) (n : Nat) : TerminalState :=
  if n == 0x18 || n == 0x1a then .text
  else if n == 0x1b then if state == .deviceHead then .device else .escape
  else
    match state with
    | .deviceHead => if 0x08 ≤ n && n ≤ 0x0d then .device else .deviceHead
    | .command => if n == 0x07 then .text else .command
    | state => state

/-- The terminal after a byte. -/
def next (state : TerminalState) (b : UInt8) : TerminalState :=
  let n := b.toNat
  if 0x80 ≤ n then state.afterHigh n
  else if n < 0x20 || n == 0x7f then state.afterControl n
  else state.afterSign n

end TerminalState

/-- The columns of a text that starts in a state of the terminal. The terminal
takes the text byte by byte, but a code point beyond ASCII as part of a cluster
unless it is data of a string. -/
def widthFrom (state : TerminalState) : List Char → Nat
  | [] => 0
  | c :: rest =>
      if c.toNat < 0x80 then
        (if state == .text && 0x20 ≤ c.toNat && c.toNat < 0x7f then 1 else 0)
          + widthFrom (state.next c.toUInt8) rest
      else if state.holdsBytes then
        widthFrom ((String.utf8EncodeChar c).foldl TerminalState.next state) rest
      else
        let cls := graphemeClass c
        let cluster := clusterRest cls (ClusterState.ofClass cls) (columns cls c) rest
        cluster.1 + widthFrom .text cluster.2
termination_by text => text.length
decreasing_by
  · simp
  · simp
  · exact Nat.lt_succ_of_le (clusterRest_length_le _ _ _ _)

/-- The columns that a line takes. -/
def displayWidth (line : String) : Nat := widthFrom .text line.toList

end WasmMachine.Text
