/-
# Where a reader stands

A step takes bytes off the front of its window whether it succeeds or fails, so the reader that
it leaves behind is the same window further on.  An error names positions at which some part of
the step stood.

`StaysIn w step` says both of a step that starts somewhere in the window `w`.  The window is
fixed along a sequence of steps: a part of the input that is read as a window of its own lies
in `w`, but its positions may be reported when the reader has long gone on behind it.
-/

import WasmMachine.Proofs.Binary.Fields

namespace WasmMachine

/-- The positions that an error names. -/
def DecodeError.positions : DecodeError → List Nat
  | .atPosition position cause => position :: cause.positions
  | .located _ position cause => position :: cause.positions
  | .inside _ cause => cause.positions
  | _ => []

namespace Reader

/-- The reader `r'` is `r` behind some of the bytes that `r` has left. -/
def Advances (r r' : Reader) : Prop := ∃ bytes, r.Takes bytes r'

/-- Bytes that are there are counted by a natural number. -/
theorem holds_iff (r : Reader) (n : Int) :
    r.holds n = true ↔ 0 ≤ n ∧ n.toNat ≤ r.rest.length := by
  rw [holds, Bool.and_eq_true, decide_eq_true_iff, decide_eq_true_iff]
  exact and_congr_right fun _ => Int.toNat_le.symm

/-- The position right behind a window. -/
def bound (r : Reader) : Nat := r.position + r.left

/-- A position in a window or right behind it. -/
def Spans (w : Reader) (position : Nat) : Prop := w.position ≤ position ∧ position ≤ w.bound

variable {w r r' r'' : Reader} {bytes more : List UInt8}

theorem Takes.trans (first : r.Takes bytes r') (second : r'.Takes more r'') :
    r.Takes (bytes ++ more) r'' := by
  obtain ⟨split, moved⟩ := first
  obtain ⟨split', moved'⟩ := second
  constructor
  · rw [split, split', List.append_assoc]
  · rw [moved', moved, List.length_append, Nat.add_assoc]

/-- What is left goes as far as what was there. -/
theorem Takes.bound_eq (takes : r.Takes bytes r') : r'.bound = r.bound := by
  have length := congrArg List.length takes.1
  rw [List.length_append] at length
  simp only [bound, left, takes.2, length, Nat.add_assoc]

namespace Advances

theorem refl (r : Reader) : r.Advances r := ⟨[], rfl, rfl⟩

theorem trans (first : r.Advances r') (second : r'.Advances r'') : r.Advances r'' := by
  obtain ⟨bytes, takes⟩ := first
  obtain ⟨more, takes'⟩ := second
  exact ⟨bytes ++ more, takes.trans takes'⟩

theorem bound_eq (advances : r.Advances r') : r'.bound = r.bound := by
  obtain ⟨bytes, takes⟩ := advances
  exact takes.bound_eq

theorem position_le (advances : r.Advances r') : r.position ≤ r'.position := by
  obtain ⟨bytes, -, moved⟩ := advances
  rw [moved]
  exact Nat.le_add_right _ _

/-- What lies in the window further on lies in the window. -/
theorem spans_of_spans (advances : r.Advances r') {p : Nat} (spans : r'.Spans p) :
    r.Spans p :=
  ⟨Nat.le_trans advances.position_le spans.1, advances.bound_eq ▸ spans.2⟩

theorem spans (advances : r.Advances r') : r.Spans r'.position :=
  advances.spans_of_spans ⟨Nat.le_refl _, Nat.le_add_right _ _⟩

end Advances

end Reader

/-- What a part of the input is that was cut off as a window of its own. -/
structure Reader.Cut (n : Int) (r inner r' : Reader) : Prop where
  size : (inner.left : Int) = n
  front : inner.position = r.position
  takes : r.Takes inner.rest r'

/-- The reader goes on right behind the part that was cut off. -/
theorem Reader.Cut.bound_eq {n : Int} {r inner r' : Reader} (cut : r.Cut n inner r') :
    inner.bound = r'.position := by
  rw [bound, cut.front, cut.takes.2, left]

theorem Reader.Cut.spans_of_spans {n : Int} {r inner r' : Reader} (cut : r.Cut n inner r')
    {p : Nat} (spans : inner.Spans p) : r.Spans p := by
  have advances : r.Advances r' := ⟨_, cut.takes⟩
  constructor
  · exact cut.front ▸ spans.1
  · exact Nat.le_trans (cut.bound_eq ▸ spans.2) advances.spans.2

namespace Decoder

open Leb128

/-! ## Steps on windows -/

section

variable {α : Type} {n : Int} {r r' inner : Reader}

/-- Bytes are read if they are there, and then they are the next ones. -/
theorem bytes_eq_ok {read : List UInt8} (ran : bytes n r = .ok read r') :
    (read.length : Int) = n ∧ r.Takes read r' := by
  unfold bytes at ran
  split at ran
  · next holds =>
      cases ran
      obtain ⟨some, enough⟩ := (r.holds_iff n).mp holds
      have length : (r.rest.take n.toNat).length = n.toNat := by
        rw [List.length_take, Nat.min_eq_left enough]
      refine ⟨by rw [length]; exact Int.toNat_of_nonneg some, ?_, ?_⟩
      · exact (List.take_append_drop _ _).symm
      · rw [length]
  · cases ran

/-- Where bytes are missing none is read. -/
theorem bytes_eq_error {cause : DecodeError} (ran : bytes n r = .error cause r') :
    r' = r ∧ cause = .unexpectedEnd := by
  unfold bytes at ran
  split at ran
  · cases ran
  · cases ran
    exact ⟨rfl, rfl⟩

theorem cut_of_window (ran : window n r = .ok inner r') : r.Cut n inner r' := by
  unfold window at ran
  split at ran
  · next holds =>
      have read : bytes n r = .ok (r.rest.take n.toNat)
          ⟨r.position + n.toNat, r.rest.drop n.toNat⟩ := if_pos holds
      obtain ⟨size, takes⟩ := bytes_eq_ok read
      cases ran
      exact ⟨size, rfl, takes⟩
  · cases ran

theorem window_eq_error {cause : DecodeError} (ran : window n r = .error cause r') :
    r' = r ∧ cause = .atPosition r.position .unexpectedEnd := by
  unfold window at ran
  split at ran
  · cases ran
  · cases ran
    exact ⟨rfl, rfl⟩

/-- A step in a window succeeds as the step does, and the reader outside stays where it is. -/
theorem within_eq_ok_iff {step : Decoder α} {a : α} {unread : Reader} :
    within inner step r = .ok (a, unread) r' ↔ r' = r ∧ step inner = .ok a unread := by
  unfold within
  split
  · next found => simp [found, eq_comm, and_comm, and_left_comm]
  · next found => simp [found]

theorem within_eq_error_iff {step : Decoder α} {cause : DecodeError} :
    within inner step r = .error cause r' ↔
      r' = r ∧ ∃ unread, step inner = .error cause unread := by
  unfold within
  split
  · next found => simp [found]
  · next found => simp [found, eq_comm, and_comm]

end

/-! ## Staying in a window -/

variable {α β : Type} {w : Reader}

/-- A step that starts in the window `w` ends in it further on, and an error of it names
positions of `w` only. -/
structure StaysIn (w : Reader) (step : Decoder α) : Prop where
  ok : ∀ (r : Reader) (a : α) (r' : Reader), w.Advances r → step r = .ok a r' → r.Advances r'
  error : ∀ (r : Reader) (cause : DecodeError) (r' : Reader), w.Advances r →
    step r = .error cause r' → r.Advances r' ∧ ∀ p ∈ cause.positions, w.Spans p

/-- A sequence of steps fails where the first of them does or where the rest does. -/
theorem bind_eq_error_iff {first : Decoder α} {next : α → Decoder β} {r r' : Reader}
    {cause : DecodeError} : (first >>= next) r = .error cause r' ↔
      first r = .error cause r' ∨
        ∃ a middle, first r = .ok a middle ∧ next a middle = .error cause r' := by
  simp only [bind, EStateM.bind]
  cases first r with
  | ok a middle =>
      constructor
      · exact fun failed => .inr ⟨a, middle, rfl, failed⟩
      · rintro (failed | ⟨_, _, found, failed⟩)
        · cases failed
        · cases found
          exact failed
  | error early middle =>
      constructor
      · intro failed
        cases failed
        exact .inl rfl
      · rintro (failed | ⟨_, _, found, _⟩)
        · cases failed
          rfl
        · cases found

/-- Only the value changes. -/
theorem map_eq_ok_iff {step : Decoder α} {f : α → β} {r r' : Reader} {b : β} :
    (f <$> step) r = .ok b r' ↔ ∃ a, step r = .ok a r' ∧ f a = b := by
  simp only [Functor.map, EStateM.map]
  cases step r with
  | ok a middle =>
      constructor
      · intro ok
        cases ok
        exact ⟨a, rfl, rfl⟩
      · rintro ⟨_, found, rfl⟩
        cases found
        rfl
  | error early middle => simp

theorem map_eq_error_iff {step : Decoder α} {f : α → β} {r r' : Reader} {cause : DecodeError} :
    (f <$> step) r = .error cause r' ↔ step r = .error cause r' := by
  simp only [Functor.map, EStateM.map]
  cases step r with
  | ok a middle => simp
  | error early middle => simp

namespace StaysIn

theorem pure (a : α) : StaysIn w (Pure.pure a) where
  ok r b r' _ ran := by
    cases ran
    exact .refl r
  error r cause r' _ ran := by cases ran

/-- An error that names no position but some of the window. -/
theorem throw {cause : DecodeError} (named : ∀ p ∈ cause.positions, w.Spans p) :
    StaysIn w (MonadExcept.throw cause : Decoder α) where
  ok r a r' _ ran := by cases ran
  error r early r' _ ran := by
    cases ran
    exact ⟨.refl r, named⟩

/-- A cause that says nothing of where it was met. -/
theorem throw_plain {cause : DecodeError} (plain : cause.positions = []) :
    StaysIn w (MonadExcept.throw cause : Decoder α) :=
  throw fun _ named => absurd (plain ▸ named) List.not_mem_nil

theorem failHere {cause : DecodeError} (plain : cause.positions = []) :
    StaysIn w (Decoder.failHere cause : Decoder α) where
  ok r a r' _ ran := by cases ran
  error r early r' inside ran := by
    cases ran
    refine ⟨.refl r, fun p named => ?_⟩
    rw [DecodeError.positions, plain, List.mem_singleton] at named
    exact named ▸ inside.spans

/-- The position of the reader is named, or what the cause has named before. -/
theorem positions_failIn {part : String} {cause early : DecodeError} {r r' : Reader}
    (inside : w.Advances r) (named : ∀ p ∈ cause.positions, w.Spans p)
    (ran : (Decoder.failIn part cause : Decoder α) r = .error early r') :
    r' = r ∧ ∀ p ∈ early.positions, w.Spans p := by
  unfold Decoder.failIn at ran
  cases ran
  refine ⟨rfl, fun p mem => ?_⟩
  split at mem
  · exact named p mem
  · rcases List.mem_cons.mp mem with rfl | mem
    · exact inside.spans
    · exact named p mem

theorem failIn (part : String) {cause : DecodeError} (plain : cause.positions = []) :
    StaysIn w (Decoder.failIn part cause : Decoder α) where
  ok r a r' _ ran := by cases ran
  error r early r' inside ran := by
    have none : ∀ p ∈ cause.positions, w.Spans p := fun _ named =>
      absurd (plain ▸ named) List.not_mem_nil
    obtain ⟨rfl, named⟩ := positions_failIn inside none ran
    exact ⟨.refl _, named⟩

theorem bind {first : Decoder α} {next : α → Decoder β} (stays : StaysIn w first)
    (continues : ∀ a, StaysIn w (next a)) : StaysIn w (first >>= next) where
  ok r b r' inside ran := by
    obtain ⟨a, middle, ran, rest⟩ := bind_eq_ok_iff.mp ran
    have front := stays.ok r a middle inside ran
    exact front.trans ((continues a).ok middle b r' (inside.trans front) rest)
  error r cause r' inside ran := by
    rcases bind_eq_error_iff.mp ran with failed | ⟨a, middle, ran, rest⟩
    · exact stays.error r cause r' inside failed
    · have front := stays.ok r a middle inside ran
      obtain ⟨back, named⟩ := (continues a).error middle cause r' (inside.trans front) rest
      exact ⟨front.trans back, named⟩

theorem map {step : Decoder α} (f : α → β) (stays : StaysIn w step) : StaysIn w (f <$> step) :=
  stays.bind fun _ => pure _

theorem ite {c : Prop} [Decidable c] {first second : Decoder α} (holds : StaysIn w first)
    (fails : StaysIn w second) : StaysIn w (if c then first else second) := by
  split
  · exact holds
  · exact fails

/-- A check that fails the step when it does not pass. -/
theorem guard {c : Prop} [Decidable c] {cause : DecodeError} {step : Decoder α}
    (plain : cause.positions = []) (stays : StaysIn w step) :
    StaysIn w (if c then MonadExcept.throw cause else step) :=
  ite (throw_plain plain) stays

theorem locate {step : Decoder α} (part : String) (stays : StaysIn w step) :
    StaysIn w (Decoder.locate part step) where
  ok r a r' inside ran := stays.ok r a r' inside (locate_eq_ok_iff.mp ran)
  error r cause r' inside ran := by
    unfold Decoder.locate at ran
    split at ran
    case h_1 => cases ran
    next early middle failed =>
      obtain ⟨advances, named⟩ := stays.error r early middle inside failed
      obtain ⟨rfl, named⟩ := positions_failIn (inside.trans advances) named ran
      exact ⟨advances, named⟩

theorem inside {step : Decoder α} (place : Place) (stays : StaysIn w step) :
    StaysIn w (Decoder.inside place step) where
  ok r a r' inside ran := by
    unfold Decoder.inside at ran
    split at ran
    · next found => exact stays.ok r a r' inside (found.trans ran)
    · cases ran
  error r cause r' inside ran := by
    unfold Decoder.inside at ran
    split at ran
    case h_1 => cases ran
    next early middle failed =>
      cases ran
      exact stays.error r early r' inside failed

theorem byte : StaysIn w Decoder.byte where
  ok r b r' _ ran := by
    obtain ⟨bytes, split, moved, -⟩ := Yields.byte r b r' ran
    exact ⟨bytes, split, moved⟩
  error r cause r' _ ran := by
    unfold Decoder.byte at ran
    split at ran
    · cases ran
      exact ⟨.refl r, fun _ named => absurd named List.not_mem_nil⟩
    · cases ran

theorem left : StaysIn w Decoder.left where
  ok r n r' _ ran := by
    cases ran
    exact .refl r
  error r cause r' _ ran := by cases ran

/-- As many bytes as are asked for, or none. -/
theorem bytes (n : Int) : StaysIn w (Decoder.bytes n) where
  ok r read r' _ ran := ⟨read, (bytes_eq_ok ran).2⟩
  error r cause r' _ ran := by
    obtain ⟨rfl, rfl⟩ := bytes_eq_error ran
    exact ⟨.refl _, fun _ named => absurd named List.not_mem_nil⟩

theorem window (n : Int) : StaysIn w (Decoder.window n) where
  ok r inner r' _ ran := ⟨inner.rest, (cut_of_window ran).takes⟩
  error r cause r' inside ran := by
    obtain ⟨rfl, rfl⟩ := window_eq_error ran
    refine ⟨.refl _, fun p named => ?_⟩
    have here : p ∈ [r'.position] := named
    exact List.mem_singleton.mp here ▸ inside.spans

/-! ## Numbers and names -/

theorem unsignedGroups (budget shift : Nat) (result : UInt32) :
    StaysIn w (Decoder.unsignedGroups budget shift result) := by
  induction budget generalizing shift result with
  | zero => exact failHere rfl
  | succ budget ih =>
      unfold Decoder.unsignedGroups
      simp only [failHere_bind]
      refine byte.bind fun b => ite (failHere rfl) ?_
      exact ite (pure _) (ih _ _)

theorem u32 : StaysIn w Decoder.u32 := unsignedGroups 5 0 0

theorem signedGroups (budget shift : Nat) (result : UInt64) :
    StaysIn w (Decoder.signedGroups budget shift result) := by
  induction budget generalizing shift result with
  | zero => exact failHere rfl
  | succ budget ih =>
      rw [signedGroups_succ]
      exact byte.bind fun b => ite (ih _ _) (pure _)

theorem signed (width : Nat) : StaysIn w (Decoder.signed width) := by
  rw [signed_eq]
  exact (signedGroups _ 0 0).bind fun n => ite (failHere rfl) (pure _)

theorem name : StaysIn w Decoder.name := by
  refine u32.bind fun length => (bytes length.toNat).bind fun text => ?_
  split
  · exact pure _
  · exact failHere rfl

theorem u32le : StaysIn w Decoder.u32le := (bytes 4).bind fun _ => pure _

theorem u64le : StaysIn w Decoder.u64le := (bytes 8).bind fun _ => pure _

/-! ## Items and windows -/

theorem itemsFrom {item : Nat → Decoder α} (stays : ∀ i, StaysIn w (item i)) (n index : Nat)
    (done : List α) : StaysIn w (Decoder.itemsFrom item n index done) := by
  induction n generalizing index done with
  | zero => exact pure _
  | succ n ih => exact (stays index).bind fun a => ih (index + 1) (a :: done)

theorem items {item : Nat → Decoder α} (n : Nat) (stays : ∀ i, StaysIn w (item i)) :
    StaysIn w (Decoder.items n item) := itemsFrom stays n 0 []

theorem count (early : Bool) : StaysIn w (Decoder.count early) := by
  unfold Decoder.count
  simp only [failIn_bind]
  exact u32.bind fun n => left.bind fun bytes => ite (failIn _ rfl) (pure n)

theorem vector {item : Nat → Decoder α} (early : Bool) (stays : ∀ i, StaysIn w (item i)) :
    StaysIn w (Decoder.vector early item) :=
  (count early).bind fun n => items n.toNat stays

/-- A step in a window of given size, and what goes on behind it. -/
theorem sized {n : Int} {cut : Decoder Reader} {step : Decoder α}
    {next : α → Reader → Decoder β}
    (cuts : ∀ r inner r', cut r = .ok inner r' → Decoder.window n r = .ok inner r')
    (fails : StaysIn w cut) (stays : ∀ inner, StaysIn inner step)
    (continues : ∀ a unread, w.Spans unread.position → StaysIn w (next a unread)) :
    StaysIn w (Decoder.sized cut step next) := by
  -- what lies in the part that was cut off lies in `w`
  have part : ∀ r inner r', w.Advances r → cut r = .ok inner r' →
      ∀ p, inner.Spans p → w.Spans p := by
    intro r inner r' inside ran p spans
    exact inside.spans_of_spans ((cut_of_window (cuts r inner r' ran)).spans_of_spans spans)
  refine ⟨?_, ?_⟩
  · intro r b r' inside ran
    obtain ⟨inner, outer, found, behind⟩ := bind_eq_ok_iff.mp ran
    obtain ⟨⟨a, unread⟩, outer', filled, rest⟩ := bind_eq_ok_iff.mp behind
    obtain ⟨same, done⟩ := within_eq_ok_iff.mp filled
    rw [same] at rest
    have front := fails.ok r inner outer inside found
    have reached := ((stays inner).ok inner a unread (.refl inner) done).spans
    have goesOn := continues a unread (part r inner outer inside found _ reached)
    exact front.trans (goesOn.ok outer b r' (inside.trans front) rest)
  · intro r cause r' inside ran
    rcases bind_eq_error_iff.mp ran with failed | ⟨inner, outer, found, behind⟩
    · exact fails.error r cause r' inside failed
    · have front := fails.ok r inner outer inside found
      rcases bind_eq_error_iff.mp behind with failed | ⟨⟨a, unread⟩, outer', filled, rest⟩
      · obtain ⟨same, unread, failed⟩ := within_eq_error_iff.mp failed
        obtain ⟨-, named⟩ := (stays inner).error inner cause unread (.refl inner) failed
        exact ⟨same ▸ front, fun p mem => part r inner outer inside found p (named p mem)⟩
      · obtain ⟨same, done⟩ := within_eq_ok_iff.mp filled
        rw [same] at rest
        have reached := ((stays inner).ok inner a unread (.refl inner) done).spans
        have goesOn := continues a unread (part r inner outer inside found _ reached)
        obtain ⟨back, named⟩ := goesOn.error outer cause r' (inside.trans front) rest
        exact ⟨front.trans back, named⟩

end StaysIn

end Decoder

end WasmMachine
