/-
# Readers in use

Who reads an input has any number of readers at once: the first one, which was opened on the
whole input, and others that were cut off from readers that were there.  Each of them may be
asked for anything at any time, also after it has failed.  A cursor remembers the window on
which a reader was opened, which the reader itself forgets as it goes on.

Every reader in use is a window onto the input.  The part of it that was opened never changes;
what is left of it is the end of that part, behind the bytes that were given out.
-/

import WasmMachine.Proofs.Binary.Windows

namespace WasmMachine.Reader

open Decoder Leb128

/-! ## Requests to one reader -/

/-- What a reader can be asked for. -/
inductive Request
  | byte
  | bytes (n : Int)
  | u32
  | signed (w : SignedWidth)
  | name
  | u32le
  | u64le
  | sub (n : Int)
  deriving DecidableEq, Repr

/-- What a reader gives. -/
inductive Answer
  | byte (b : UInt8)
  | bytes (bs : List UInt8)
  | u32 (n : UInt32)
  | signed (v : Int)
  | name (s : String)
  | u32le (n : UInt32)
  | u64le (n : UInt64)
  | sub (inner : Reader)

namespace Request

/-- Ask a reader. -/
def run : Request → Decoder Answer
  | byte => .byte <$> Decoder.byte
  | bytes n => .bytes <$> Decoder.bytes n
  | u32 => .u32 <$> Decoder.u32
  | signed w => .signed <$> w.read
  | name => .name <$> Decoder.name
  | u32le => .u32le <$> Decoder.u32le
  | u64le => .u64le <$> Decoder.u64le
  | sub n => .sub <$> window n

/-- Requests for a number of bytes that is known beforehand. -/
def isFixed : Request → Bool
  | byte | bytes _ | u32le | u64le | sub _ => true
  | u32 | signed _ | name => false

/-- The most bytes that an encoding of a requested number of variable length has. -/
def mostBytes : Request → Option Nat
  | u32 => some 5
  | signed .narrow | signed .block => some 5
  | signed .wide => some 10
  | _ => none

/-- The bytes `bs`, the first of which stands at `position`, are what a request is answered
with. -/
inductive Answered (position : Nat) : Request → List UInt8 → Answer → Prop
  | byte (b : UInt8) : Answered position .byte [b] (.byte b)
  | bytes (bs : List UInt8) : Answered position (.bytes bs.length) bs (.bytes bs)
  | u32 {bs : List UInt8} {n : UInt32} : Unsigned bs n → Answered position .u32 bs (.u32 n)
  | signed {w : SignedWidth} {bs : List UInt8} {v : Int} :
      Signed w.bits bs v → Answered position (.signed w) bs (.signed v)
  | name {bs : List UInt8} {s : String} : Named bs s → Answered position .name bs (.name s)
  | u32le {bs : List UInt8} : bs.length = 4 →
      Answered position .u32le bs (.u32le (.ofNat (littleEndian bs)))
  | u64le {bs : List UInt8} : bs.length = 8 →
      Answered position .u64le bs (.u64le (.ofNat (littleEndian bs)))
  | sub (bs : List UInt8) : Answered position (.sub bs.length) bs (.sub ⟨position, bs⟩)

variable {q : Request} {r r' w : Reader} {answer : Answer} {cause : DecodeError}

theorem run_signed (w : SignedWidth) :
    (signed w).run = .signed <$> Decoder.signed w.bits := by rw [run, w.read_eq]

private theorem answered_of_yields {α : Type} {step : Decoder α} {make : α → Answer}
    {P : List UInt8 → α → Prop} (yields : Yields step P)
    (tells : ∀ bs a, P bs a → Answered r.position q bs (make a))
    (ran : (make <$> step) r = .ok answer r') :
    ∃ bs, r.Takes bs r' ∧ Answered r.position q bs answer := by
  obtain ⟨bs, split, moved, a, rfl, holds⟩ := Yields.map make yields r answer r' ran
  exact ⟨bs, ⟨split, moved⟩, tells bs a holds⟩

/-- An answer is told by the bytes that were taken for it. -/
theorem answered (ran : q.run r = .ok answer r') :
    ∃ bs, r.Takes bs r' ∧ Answered r.position q bs answer := by
  cases q with
  | byte =>
      refine answered_of_yields Yields.byte (fun bs b taken => ?_) ran
      subst taken
      exact .byte b
  | bytes n =>
      obtain ⟨read, taken, rfl⟩ := map_eq_ok_iff.mp ran
      obtain ⟨rfl, takes⟩ := bytes_eq_ok taken
      exact ⟨read, takes, .bytes read⟩
  | u32 => exact answered_of_yields Yields.u32 (fun _ _ => .u32) ran
  | signed w =>
      rw [run_signed] at ran
      exact answered_of_yields (Yields.signed w.bits_le) (fun _ _ => .signed) ran
  | name => exact answered_of_yields Yields.name (fun _ _ => .name) ran
  | u32le =>
      refine answered_of_yields Yields.u32le (fun bs n found => ?_) ran
      obtain ⟨four, rfl⟩ := found
      exact .u32le four
  | u64le =>
      refine answered_of_yields Yields.u64le (fun bs n found => ?_) ran
      obtain ⟨eight, rfl⟩ := found
      exact .u64le eight
  | sub n =>
      obtain ⟨⟨position, bs⟩, taken, rfl⟩ := map_eq_ok_iff.mp ran
      obtain ⟨rfl, front, takes⟩ := cut_of_window taken
      obtain rfl : position = r.position := front
      exact ⟨bs, takes, .sub bs⟩

/-- No request leaves the window of the reader. -/
theorem staysIn (q : Request) : StaysIn w q.run := by
  cases q with
  | byte => exact StaysIn.byte.map _
  | bytes n => exact (StaysIn.bytes n).map _
  | u32 => exact StaysIn.u32.map _
  | signed w =>
      rw [run_signed]
      exact (StaysIn.signed w.bits).map _
  | name => exact StaysIn.name.map _
  | u32le => exact StaysIn.u32le.map _
  | u64le => exact StaysIn.u64le.map _
  | sub n => exact (StaysIn.window n).map _

end Request

/-! ## How far a failed request can have come -/

/-- A step that takes at most `most` bytes, also where it fails. -/
structure AtMost {α : Type} (most : Nat) (step : Decoder α) : Prop where
  ok : ∀ (r : Reader) (a : α) (r' : Reader), step r = .ok a r' →
    r'.position ≤ r.position + most
  error : ∀ (r : Reader) (cause : DecodeError) (r' : Reader), step r = .error cause r' →
    r'.position ≤ r.position + most

namespace AtMost

variable {α β : Type} {most more : Nat}

theorem pure (a : α) : AtMost most (Pure.pure a) where
  ok r b r' ran := by
    cases ran
    exact Nat.le_add_right _ _
  error r cause r' ran := by cases ran

theorem failHere (cause : DecodeError) : AtMost most (Decoder.failHere cause : Decoder α) where
  ok r a r' ran := by cases ran
  error r early r' ran := by
    cases ran
    exact Nat.le_add_right _ _

theorem byte : AtMost 1 Decoder.byte where
  ok r b r' ran := by
    obtain ⟨bs, -, moved, taken⟩ := Yields.byte r b r' ran
    rw [taken] at moved
    exact Nat.le_of_eq moved
  error r cause r' ran := by
    unfold Decoder.byte at ran
    split at ran
    · cases ran
      exact Nat.le_add_right _ _
    · cases ran

theorem bind {first : Decoder α} {next : α → Decoder β} (front : AtMost most first)
    (back : ∀ a, AtMost more (next a)) : AtMost (most + more) (first >>= next) where
  ok r b r' ran := by
    obtain ⟨a, middle, ran, rest⟩ := bind_eq_ok_iff.mp ran
    have := front.ok r a middle ran
    have := (back a).ok middle b r' rest
    omega
  error r cause r' ran := by
    rcases bind_eq_error_iff.mp ran with failed | ⟨a, middle, ran, rest⟩
    · have := front.error r cause r' failed
      omega
    · have := front.ok r a middle ran
      have := (back a).error middle cause r' rest
      omega

theorem ite {c : Prop} [Decidable c] {first second : Decoder α} (holds : AtMost most first)
    (fails : AtMost most second) : AtMost most (if c then first else second) := by
  split
  · exact holds
  · exact fails

theorem unsignedGroups (budget shift : Nat) (result : UInt32) :
    AtMost budget (Decoder.unsignedGroups budget shift result) := by
  induction budget generalizing shift result with
  | zero => exact failHere _
  | succ budget ih =>
      unfold Decoder.unsignedGroups
      simp only [failHere_bind]
      rw [Nat.add_comm]
      exact byte.bind fun b => ite (failHere _) (ite (pure _) (ih _ _))

theorem signedGroups (budget shift : Nat) (result : UInt64) :
    AtMost budget (Decoder.signedGroups budget shift result) := by
  induction budget generalizing shift result with
  | zero => exact failHere _
  | succ budget ih =>
      rw [signedGroups_succ, Nat.add_comm]
      exact byte.bind fun b => ite (ih _ _) (pure _)

/-- The check on the width comes when all bytes are read. -/
theorem signed (width : Nat) : AtMost ((width + 6) / 7) (Decoder.signed width) := by
  rw [signed_eq]
  change AtMost ((width + 6) / 7 + 0) _
  exact (signedGroups _ 0 0).bind fun n => ite (failHere _) (pure _)

end AtMost

namespace Request

variable {q : Request} {r r' : Reader} {cause : DecodeError}

/-- A request for a known number of bytes takes them all or none. -/
theorem eq_of_isFixed (fixed : q.isFixed) (failed : q.run r = .error cause r') : r' = r := by
  cases q with
  | byte =>
      have failed := map_eq_error_iff.mp failed
      unfold Decoder.byte at failed
      split at failed
      · cases failed
        rfl
      · cases failed
  | bytes n => exact (bytes_eq_error (map_eq_error_iff.mp failed)).1
  | u32 => cases fixed
  | signed w => cases fixed
  | name => cases fixed
  | u32le =>
      rcases bind_eq_error_iff.mp (map_eq_error_iff.mp failed) with failed | ⟨_, _, _, done⟩
      · exact (bytes_eq_error failed).1
      · cases done
  | u64le =>
      rcases bind_eq_error_iff.mp (map_eq_error_iff.mp failed) with failed | ⟨_, _, _, done⟩
      · exact (bytes_eq_error failed).1
      · cases done
  | sub n => exact (window_eq_error (map_eq_error_iff.mp failed)).1

/-- A request for a number of variable length gives up after the longest encoding. -/
theorem position_le_of_mostBytes {most : Nat} (number : q.mostBytes = some most)
    (failed : q.run r = .error cause r') : r'.position ≤ r.position + most := by
  cases q with
  | u32 =>
      cases number
      exact (AtMost.unsignedGroups 5 0 0).error r cause r' (map_eq_error_iff.mp failed)
  | signed w =>
      rw [run_signed] at failed
      have reached := (AtMost.signed w.bits).error r cause r' (map_eq_error_iff.mp failed)
      cases w
      all_goals
        cases number
        exact reached
  | _ => cases number

end Request

/-! ## Parts of the input -/

/-- The bytes that a reader has left stand in the input at its position. -/
structure PartOf (input : List UInt8) (r : Reader) : Prop where
  split : ∃ before behind, input = before ++ (r.rest ++ behind) ∧ before.length = r.position

namespace PartOf

variable {input bs : List UInt8} {r r' : Reader}

theorem ofBytes (input : List UInt8) : PartOf input (.ofBytes input) :=
  ⟨[], [], (List.append_nil input).symm, rfl⟩

/-- What is taken off a part of the input is one, and so is what is left. -/
theorem of_takes (part : PartOf input r) (takes : r.Takes bs r') :
    PartOf input ⟨r.position, bs⟩ ∧ PartOf input r' := by
  obtain ⟨before, behind, whole, length⟩ := part
  obtain ⟨split, moved⟩ := takes
  rw [split] at whole
  constructor
  · exact ⟨before, r'.rest ++ behind, by rw [whole, List.append_assoc], length⟩
  · refine ⟨before ++ bs, behind, ?_, ?_⟩
    · rw [whole, List.append_assoc, List.append_assoc]
    · rw [List.length_append, length, moved]

theorem bound_le (part : PartOf input r) : r.bound ≤ input.length := by
  obtain ⟨before, behind, whole, length⟩ := part
  simp only [bound, left, whole, List.length_append, ← length]
  omega

theorem rest_eq (part : PartOf input r) :
    r.rest = (input.drop r.position).take r.rest.length := by
  obtain ⟨before, behind, whole, length⟩ := part
  rw [whole, ← length, List.drop_left, List.take_left]

end PartOf

/-! ## Cursors -/

/-- A reader in use, and the window on which it was opened. -/
structure Cursor where
  opened : Reader
  now : Reader

namespace Cursor

/-- Where the bytes of a reader begin in the input. -/
def base (c : Cursor) : Nat := c.opened.position

/-- All bytes of a reader, also those that it has given out. -/
def data (c : Cursor) : List UInt8 := c.opened.rest

/-- How far a reader has come in its bytes. -/
def pos (c : Cursor) : Int := c.now.position - c.opened.position

/-- A reader that has not been asked for anything yet. -/
def openOn (r : Reader) : Cursor := ⟨r, r⟩

/-- The reader behind a request, whether it was granted or not. -/
def after (c : Cursor) (q : Request) : Cursor :=
  match q.run c.now with
  | .ok _ r => ⟨c.opened, r⟩
  | .error _ r => ⟨c.opened, r⟩

/-- The reader that a request has cut off. -/
def cutOff (c : Cursor) (q : Request) : List Cursor :=
  match q.run c.now with
  | .ok (.sub inner) _ => [openOn inner]
  | _ => []

/-- What holds of a reader whatever it was asked for. -/
structure Placed (input : List UInt8) (c : Cursor) : Prop where
  part : PartOf input c.opened
  advances : c.opened.Advances c.now

/-- A reader is a window onto the input: its bytes are those of the input from its base on,
and it stands among them or right behind the last one. -/
structure OnInput (input : List UInt8) (c : Cursor) : Prop where
  pos_nonneg : 0 ≤ c.pos
  pos_le : c.pos ≤ c.data.length
  base_le : c.base + c.data.length ≤ input.length
  data_eq : c.data = (input.drop c.base).take c.data.length
  rest_eq : c.now.rest = c.data.drop c.pos.toNat

/-- What a reader does when it is asked. -/
structure Serves (input : List UInt8) (c : Cursor) (q : Request) : Prop where
  /-- An answer is told by bytes of the input from the position on at which the reader stood.
  They end where the reader goes on, and within its bytes. -/
  answered : ∀ answer r, q.run c.now = .ok answer r →
    ∃ bs, q.Answered c.now.position bs answer ∧
      bs = (input.drop c.now.position).take bs.length ∧ c.now.Takes bs r ∧
      c.now.position + bs.length ≤ c.base + c.data.length
  /-- Where bytes are missing none is read. -/
  unchanged : q.isFixed → ∀ cause r, q.run c.now = .error cause r → r = c.now
  /-- A number that is refused was not read further than the longest encoding. -/
  brief : ∀ most, q.mostBytes = some most → ∀ cause r, q.run c.now = .error cause r →
    r.position ≤ c.now.position + most
  /-- An error names no position outside the bytes of the reader. -/
  named : ∀ cause r, q.run c.now = .error cause r →
    ∀ p ∈ cause.positions, c.base ≤ p ∧ p ≤ c.base + c.data.length

variable {input : List UInt8} {c : Cursor}

@[simp]
theorem after_opened (c : Cursor) (q : Request) : (c.after q).opened = c.opened := by
  unfold after
  split
  · rfl
  · rfl

/-- No request takes a reader back. -/
theorem now_advances (c : Cursor) (q : Request) : c.now.Advances (c.after q).now := by
  unfold after
  split
  · next ran => exact (q.staysIn (w := c.now)).ok _ _ _ (.refl _) ran
  · next failed => exact ((q.staysIn (w := c.now)).error _ _ _ (.refl _) failed).1

namespace Placed

theorem openOn {r : Reader} (part : PartOf input r) : Placed input (openOn r) := ⟨part, .refl r⟩

theorem now (placed : c.Placed input) : PartOf input c.now := by
  obtain ⟨bytes, takes⟩ := placed.advances
  exact (placed.part.of_takes takes).2

theorem bound_eq (placed : c.Placed input) : c.now.bound = c.base + c.data.length :=
  placed.advances.bound_eq

theorem after (placed : c.Placed input) (q : Request) : (c.after q).Placed input := by
  have forward := c.now_advances q
  constructor
  · rw [after_opened]
    exact placed.part
  · rw [after_opened]
    exact placed.advances.trans forward

/-- What is cut off from a part of the input is one. -/
theorem cutOff (placed : c.Placed input) (q : Request) :
    ∀ inner ∈ c.cutOff q, inner.Placed input := by
  intro inner mem
  unfold Cursor.cutOff at mem
  split at mem
  · next window r ran =>
      obtain rfl := List.mem_singleton.mp mem
      obtain ⟨bs, takes, told⟩ := Request.answered ran
      cases told
      exact openOn (placed.now.of_takes takes).1
  · exact absurd mem List.not_mem_nil

theorem onInput (placed : c.Placed input) : c.OnInput input := by
  obtain ⟨bytes, split, moved⟩ := placed.advances
  have pos : c.pos = bytes.length := by
    rw [Cursor.pos, moved]
    omega
  have data : c.data = bytes ++ c.now.rest := split
  refine ⟨?_, ?_, placed.part.bound_le, placed.part.rest_eq, ?_⟩
  · omega
  · rw [pos, data, List.length_append]
    omega
  · rw [pos, data, Int.toNat_natCast, List.drop_left]

theorem serves (placed : c.Placed input) (q : Request) : c.Serves input q where
  answered answer r ran := by
    obtain ⟨bs, takes, told⟩ := Request.answered ran
    have taken := (placed.now.of_takes takes).1.rest_eq
    refine ⟨bs, told, taken, takes, ?_⟩
    rw [← placed.bound_eq, ← takes.bound_eq, bound, takes.2]
    exact Nat.le_add_right _ _
  unchanged fixed _ _ failed := Request.eq_of_isFixed fixed failed
  brief _ number _ _ failed := Request.position_le_of_mostBytes number failed
  named cause r failed p mem :=
    ((q.staysIn (w := c.opened)).error c.now cause r placed.advances failed).2 p mem

end Placed

end Cursor

/-! ## All readers at once -/

/-- The readers in use, in the order in which they were opened. -/
abbrev Session := List Cursor

namespace Session

/-- An input that nobody has read from. -/
def start (input : List UInt8) : Session := [.openOn (.ofBytes input)]

/-- Ask the reader of a number; a reader that is cut off gets the next number. -/
def ask (s : Session) (i : Nat) (q : Request) : Session :=
  match s[i]? with
  | none => s
  | some c => s.set i (c.after q) ++ c.cutOff q

/-- Ask readers for one thing after another. -/
def run (s : Session) (script : List (Nat × Request)) : Session :=
  script.foldl (fun s step => s.ask step.1 step.2) s

variable {input : List UInt8} {s : Session}

theorem placed_ask (placed : ∀ c ∈ s, c.Placed input) (i : Nat) (q : Request) :
    ∀ c ∈ s.ask i q, c.Placed input := by
  intro c mem
  unfold ask at mem
  split at mem
  · exact placed c mem
  · next asked found =>
      have here := placed asked (List.mem_of_getElem? found)
      rcases List.mem_append.mp mem with mem | mem
      · rcases List.mem_or_eq_of_mem_set mem with mem | rfl
        · exact placed c mem
        · exact here.after q
      · exact here.cutOff q c mem

theorem placed_run (placed : ∀ c ∈ s, c.Placed input) (script : List (Nat × Request)) :
    ∀ c ∈ s.run script, c.Placed input := by
  induction script generalizing s with
  | nil => exact placed
  | cons step script ih => exact ih (placed_ask placed step.1 step.2)

theorem placed_start (script : List (Nat × Request)) :
    ∀ c ∈ (start input).run script, c.Placed input := by
  refine placed_run (fun c mem => ?_) script
  obtain rfl := List.mem_singleton.mp mem
  exact .openOn (.ofBytes input)

/-- A reader stays the one that was opened, and whoever else is asked for something, it does
not go back. -/
theorem exists_ask {j : Nat} {c : Cursor} (found : s[j]? = some c) (i : Nat) (q : Request) :
    ∃ c', (s.ask i q)[j]? = some c' ∧ c'.opened = c.opened ∧ c.now.Advances c'.now ∧
      (i ≠ j → c' = c) := by
  have inside : j < s.length := (List.getElem?_eq_some_iff.mp found).1
  unfold ask
  split
  · exact ⟨c, found, rfl, .refl _, fun _ => rfl⟩
  · next asked here =>
      have inside' : j < (s.set i (asked.after q)).length := by rwa [List.length_set]
      rw [List.getElem?_append_left inside']
      by_cases own : i = j
      · subst own
        obtain rfl : c = asked := Option.some.inj (found.symm.trans here)
        refine ⟨c.after q, ?_, c.after_opened q, c.now_advances q, fun other => absurd rfl other⟩
        exact List.getElem?_set_self inside
      · rw [List.getElem?_set_ne own]
        exact ⟨c, found, rfl, .refl _, fun _ => rfl⟩

theorem exists_run {j : Nat} {c : Cursor} (found : s[j]? = some c)
    (script : List (Nat × Request)) :
    ∃ c', (s.run script)[j]? = some c' ∧ c'.opened = c.opened ∧ c.now.Advances c'.now ∧
      ((∀ step ∈ script, step.1 ≠ j) → c' = c) := by
  induction script generalizing s c with
  | nil => exact ⟨c, found, rfl, .refl _, fun _ => rfl⟩
  | cons step script ih =>
      obtain ⟨c', found', opened, forward, same⟩ := exists_ask found step.1 step.2
      obtain ⟨c'', found'', opened', forward', same'⟩ := ih found'
      refine ⟨c'', found'', opened'.trans opened, forward.trans forward', fun others => ?_⟩
      obtain ⟨other, others⟩ := List.forall_mem_cons.mp others
      rw [same' others, same other]

end Session

end WasmMachine.Reader
