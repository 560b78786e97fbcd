/-
# Reading somewhere else

A decoding step looks at the bytes of its window and not at where the window stands in
the input: positions are for the reports of failures alone.  So a run that succeeds
succeeds on the same bytes wherever they are moved.  Steps that look at the number of
bytes left are no exception, since all that follows them is moved along.
-/

import WasmMachine.Proofs.Instruction.Grammar

namespace WasmMachine.Decoder

variable {α β : Type}

/-- A run that succeeds succeeds with the same value on the same bytes at any other
position, and leaves the same bytes behind. -/
def Portable (step : Decoder α) : Prop :=
  ∀ (r r' : Reader) (a : α) (s : Reader), r.rest = r'.rest → step r = .ok a s →
    ∃ s', step r' = .ok a s' ∧ s'.rest = s.rest

/-- What fills its window fills the same window at any other position. -/
theorem Portable.fills {step : Decoder α} {P : List UInt8 → α → Prop} (portable : Portable step)
    (yields : Yields step P) {position : Nat} {payload : List UInt8} {a : α} {unread : Reader}
    (ran : step ⟨position, payload⟩ = .ok a unread) (all : unread.rest = []) (elsewhere : Nat) :
    step ⟨elsewhere, payload⟩ = .ok a ⟨elsewhere + payload.length, []⟩ := by
  obtain ⟨⟨position', rest⟩, ran', same⟩ :=
    portable ⟨position, payload⟩ ⟨elsewhere, payload⟩ a unread rfl ran
  rw [all] at same
  obtain rfl : rest = [] := same
  obtain ⟨bytes, split, moved, -⟩ := yields _ _ _ ran'
  obtain rfl : payload = bytes := by simpa using split
  obtain rfl : position' = elsewhere + payload.length := moved
  exact ran'

namespace Portable

theorem pure (a : α) : Portable (Pure.pure a) := by
  intro r r' b s same ran
  cases ran
  exact ⟨r', rfl, same.symm⟩

theorem throw (cause : DecodeError) : Portable (MonadExcept.throw cause : Decoder α) := by
  intro r r' a s _ ran
  cases ran

theorem failIn (part : String) (cause : DecodeError) :
    Portable (Decoder.failIn part cause : Decoder α) := by
  intro r r' a s _ ran
  cases ran

theorem bind {first : Decoder α} {next : α → Decoder β} (portable : Portable first)
    (continues : ∀ a, Portable (next a)) : Portable (first >>= next) := by
  intro r r' b s same ran
  obtain ⟨a, middle, ran, rest⟩ := bind_eq_ok_iff.mp ran
  obtain ⟨middle', ran', same'⟩ := portable r r' a middle same ran
  obtain ⟨s', rest', left⟩ := continues a middle middle' b s same'.symm rest
  exact ⟨s', bind_eq_ok_iff.mpr ⟨a, middle', ran', rest'⟩, left⟩

theorem ite {c : Prop} [Decidable c] {first second : Decoder α} (holds : Portable first)
    (fails : Portable second) : Portable (if c then first else second) := by
  split
  · exact holds
  · exact fails

/-- A check that fails the step when it does not pass. -/
theorem guard {c : Prop} [Decidable c] {cause : DecodeError} {step : Decoder α}
    (portable : Portable step) :
    Portable (if c then MonadExcept.throw cause else step) := ite (throw cause) portable

theorem inside {step : Decoder α} (place : Place) (portable : Portable step) :
    Portable (Decoder.inside place step) := by
  intro r r' a s same ran
  have inner : step r = .ok a s := by
    unfold Decoder.inside at ran
    split at ran
    · next found => rw [found, ran]
    · cases ran
  obtain ⟨s', ran', left⟩ := portable r r' a s same inner
  exact ⟨s', by simp only [Decoder.inside, ran'], left⟩

theorem left : Portable Decoder.left := by
  intro r r' n s same ran
  cases ran
  exact ⟨r', by simp only [Decoder.left, Reader.left, same], same.symm⟩

/-- What takes the same bytes in front of anything takes them anywhere. -/
theorem of_reads {step : Decoder α} (yields : Yields step fun bytes a => Reads step bytes a) :
    Portable step := by
  rintro r ⟨position, rest⟩ a s rfl ran
  obtain ⟨bytes, split, -, reads⟩ := yields r a s ran
  refine ⟨⟨position + bytes.length, s.rest⟩, ?_, rfl⟩
  rw [split]
  exact reads position s.rest

theorem byte : Portable Decoder.byte := by
  refine of_reads (Yields.byte.mono fun bytes b taken => ?_)
  subst taken
  exact Reads.byte b

theorem bytes (n : Nat) : Portable (Decoder.bytes n) := by
  refine of_reads ((Yields.bytes n).mono fun taken read found => ?_)
  obtain ⟨rfl, rfl⟩ := found
  exact Reads.bytes taken

theorem u32 : Portable Decoder.u32 := of_reads (Yields.u32.mono fun _ _ => Reads.u32)

theorem name : Portable Decoder.name := of_reads (Yields.name.mono fun _ _ => Reads.name)

theorem valType : Portable Decoder.valType := by
  refine of_reads (Yields.valType.mono fun bytes t found => ?_)
  obtain ⟨rfl, valid⟩ := found
  exact Reads.valType valid

theorem expr (early : Bool) : Portable (Decoder.expr early) := by
  refine of_reads ((Yields.expr early).mono fun bytes is found => ?_)
  obtain ⟨inner, rfl, spelled, shallow⟩ := found
  exact Reads.expr early spelled shallow

/-- A step that fills a window of given size, in front of one that makes nothing of where
the window ended. -/
theorem sized {n : Nat} {step : Decoder α} {next : α → Reader → Decoder β}
    (portable : Portable step) (continues : ∀ a unread, Portable (next a unread))
    (anywhere : ∀ a (unread unread' : Reader), unread.rest = unread'.rest →
      ∀ r b s, next a unread r = .ok b s → next a unread' r = .ok b s) :
    Portable (Decoder.sized (window n) step next) := by
  intro r r' b s same ran
  obtain ⟨inner, outer, cut, ran⟩ := bind_eq_ok_iff.mp ran
  obtain ⟨⟨a, unread⟩, outer', ran, rest⟩ := bind_eq_ok_iff.mp ran
  rw [window] at cut
  split at cut
  case isFalse => cases cut
  next enough =>
    cases cut
    have enough' : r'.holds n := by
      rwa [Reader.holds_natCast, same, ← Reader.holds_natCast] at enough
    unfold within at ran
    split at ran
    case h_2 => cases ran
    next filled =>
      cases ran
      obtain ⟨unread', filled', same'⟩ := portable _ ⟨r'.position, r'.rest.take n⟩ a _
        (congrArg (List.take n) same) filled
      obtain ⟨s', rest', left⟩ := continues a unread _ ⟨r'.position + n, r'.rest.drop n⟩ b s
        (congrArg (List.drop n) same) rest
      have cut' : window n r' =
          .ok ⟨r'.position, r'.rest.take n⟩ ⟨r'.position + n, r'.rest.drop n⟩ := by
        rw [window, if_pos enough']
        rfl
      have read : within ⟨r'.position, r'.rest.take n⟩ step ⟨r'.position + n, r'.rest.drop n⟩ =
          .ok (a, unread') ⟨r'.position + n, r'.rest.drop n⟩ := by
        simp only [within, filled']
      exact ⟨s', bind_eq_ok_iff.mpr ⟨_, _, cut', bind_eq_ok_iff.mpr ⟨_, _, read,
        anywhere a _ _ same'.symm _ _ _ rest'⟩⟩, left⟩

/-! ## Items -/

theorem count (early : Bool) : Portable (Decoder.count early) := by
  unfold Decoder.count
  refine u32.bind fun n => left.bind fun bytes => ?_
  simp only [failIn_bind]
  exact ite (failIn _ _) (pure n)

theorem itemsFrom {item : Nat → Decoder α} (portable : ∀ i, Portable (item i)) (n index : Nat)
    (done : List α) : Portable (Decoder.itemsFrom item n index done) := by
  induction n generalizing index done with
  | zero => exact pure _
  | succ n ih => exact (portable index).bind fun a => ih (index + 1) (a :: done)

theorem vector {item : Nat → Decoder α} (early : Bool) (portable : ∀ i, Portable (item i)) :
    Portable (Decoder.vector early item) :=
  (count early).bind fun n => itemsFrom portable n.toNat 0 []

end Portable

end WasmMachine.Decoder
