/-
# Counts that are refused early

A count that the bytes left cannot meet is refused as soon as it is read.  Without that check
the items are read one by one until the bytes run out, because every item takes at least one.
So the check changes no run that succeeds, and a run that fails at it fails without it as well,
only later.

`Anticipates guarded plain` compares two steps in this respect.  Along a sequence of steps the
comparison ends where the guarded one refuses a count: from there on it is enough that the
other one fails and that the reader does not go back.
-/

import WasmMachine.Proofs.Binary.Windows

namespace WasmMachine

/-- A count was refused at a position. Where its items follow directly, the bytes that were
left there are fewer. -/
inductive DecodeError.RefusesCount : DecodeError → Nat → Prop
  | items {n : UInt32} {left p : Nat} : left < n.toNat →
      RefusesCount (.located "vector" p (.count n left)) p
  | labels {n : UInt32} {p : Nat} : RefusesCount (.located "br_table" p (.labelCount n)) p
  | inside {place : Place} {cause : DecodeError} {p : Nat} :
      RefusesCount cause p → RefusesCount (.inside place cause) p

/-- A refused count is reported where it was met. -/
theorem DecodeError.RefusesCount.isLocated {cause : DecodeError} {p : Nat}
    (refuses : cause.RefusesCount p) : cause.isLocated = true := by
  induction refuses with
  | items _ => rfl
  | labels => rfl
  | inside _ ih => exact ih

namespace Decoder

open Leb128

variable {α β : Type}

/-- Two outcomes are the same, or the first refuses a count and the second is a failure that
was met no earlier. -/
inductive Anticipated :
    EStateM.Result DecodeError Reader α → EStateM.Result DecodeError Reader α → Prop
  | same (o : EStateM.Result DecodeError Reader α) : Anticipated o o
  | early {cause late : DecodeError} {r r' : Reader} {p : Nat} :
      cause.RefusesCount p → p ≤ r'.position → (∀ q ∈ late.positions, p ≤ q) →
      Anticipated (.error cause r) (.error late r')

/-- Wherever the two steps start, they end alike, or the first refuses a count before the
second fails. -/
def Anticipates (guarded plain : Decoder α) : Prop := ∀ r, Anticipated (guarded r) (plain r)

/-- Both succeed, with the same value and at the same place, or neither does. -/
theorem Anticipated.ok_iff {o o' : EStateM.Result DecodeError Reader α}
    (anticipated : Anticipated o o') (a : α) (r : Reader) : o = .ok a r ↔ o' = .ok a r := by
  cases anticipated with
  | same => exact Iff.rfl
  | early =>
      constructor
      · intro ok
        cases ok
      · intro ok
        cases ok

/-- Where the first of two failures refuses a count nothing follows, and otherwise what follows
is compared where both have come to. -/
theorem Anticipated.bind {guarded plain : Decoder α} {f g : α → Decoder β} {r : Reader}
    (front : Anticipated (guarded r) (plain r))
    (continues : ∀ a r', plain r = .ok a r' → Anticipated (f a r') (g a r')) :
    Anticipated ((guarded >>= f) r) ((plain >>= g) r) := by
  simp only [Bind.bind, EStateM.bind]
  generalize guarded r = o at front
  generalize plain r = o' at front continues
  cases front with
  | same =>
      cases o with
      | ok a r' => exact continues a r' rfl
      | error cause r' => exact .same _
  | early refuses behind named => exact .early refuses behind named

namespace Anticipates

variable {guarded plain : Decoder α}

theorem refl (step : Decoder α) : Anticipates step step := fun r => .same (step r)

theorem bind {f g : α → Decoder β} (first : Anticipates guarded plain)
    (continues : ∀ a, Anticipates (f a) (g a)) : Anticipates (guarded >>= f) (plain >>= g) :=
  fun r => (first r).bind fun a r' _ => continues a r'

theorem ite {c : Prop} [Decidable c] {f g : Decoder α} (holds : Anticipates guarded plain)
    (fails : Anticipates f g) :
    Anticipates (if c then guarded else f) (if c then plain else g) := by
  split
  · exact holds
  · exact fails

/-- A count that was refused is located already; the later failure is located where the reader
has come to, or was so before. -/
theorem locate (part : String) (step : Anticipates guarded plain) :
    Anticipates (Decoder.locate part guarded) (Decoder.locate part plain) := by
  intro r
  have front := step r
  unfold Decoder.locate
  generalize guarded r = o at front
  generalize plain r = o' at front
  cases front with
  | same => exact .same _
  | @early cause late r₁ r₂ p refuses behind named =>
      simp only [Decoder.failIn, refuses.isLocated, if_true]
      refine .early refuses behind ?_
      split
      · exact named
      · exact List.forall_mem_cons.mpr ⟨behind, named⟩

theorem inside (place : Place) (step : Anticipates guarded plain) :
    Anticipates (Decoder.inside place guarded) (Decoder.inside place plain) := by
  intro r
  have front := step r
  unfold Decoder.inside
  generalize guarded r = o at front
  generalize plain r = o' at front
  cases front with
  | same => exact .same _
  | early refuses behind named => exact .early refuses.inside behind named

/-- In a window: what is met there is met before the position behind it. -/
theorem sized {n : Int} {cut : Decoder Reader} {f g : α → Reader → Decoder β}
    (cuts : ∀ r inner r', cut r = .ok inner r' → window n r = .ok inner r')
    (step : Anticipates guarded plain) (stays : ∀ w, StaysIn w plain)
    (continues : ∀ a unread, Anticipates (f a unread) (g a unread)) :
    Anticipates (Decoder.sized cut guarded f) (Decoder.sized cut plain g) := by
  intro r
  refine (Anticipated.same (cut r)).bind fun inner r' found => ?_
  have cut := cut_of_window (cuts r inner r' found)
  have filled : Anticipated (within inner guarded r') (within inner plain r') := by
    have front := step inner
    unfold within
    generalize guarded inner = o at front
    generalize outcome : plain inner = o' at front
    cases front with
    | same => exact .same _
    | @early cause late r₁ r₂ p refuses behind named =>
        have reached := ((stays inner).error inner late r₂ (.refl inner) outcome).1.spans
        exact .early refuses (Nat.le_trans behind (cut.bound_eq ▸ reached.2)) named
  exact filled.bind fun read s _ => continues read.1 read.2 s

/-! ## Items -/

theorem itemsFrom {item item' : Nat → Decoder α}
    (items : ∀ i, Anticipates (item i) (item' i)) (n index : Nat) (done : List α) :
    Anticipates (Decoder.itemsFrom item n index done) (Decoder.itemsFrom item' n index done) := by
  induction n generalizing index done with
  | zero => exact refl _
  | succ n ih => exact (items index).bind fun a => ih (index + 1) (a :: done)

/-- What needs a byte for each of those that are counted fails behind a count that the bytes
left cannot meet, and it does not go back before it fails. -/
theorem early_of_left_lt {step : Decoder α} {cause : DecodeError} {r : Reader} {n : Nat}
    (needs : Yields step fun bytes _ => n ≤ bytes.length) (stays : ∀ w, StaysIn w step)
    (few : r.left < n) (refuses : cause.RefusesCount r.position) :
    Anticipated (.error cause r) (step r) := by
  generalize outcome : step r = o
  cases o with
  | ok a r' =>
      obtain ⟨bytes, split, -, enough⟩ := needs r a r' outcome
      have length := congrArg List.length split
      rw [List.length_append] at length
      rw [Reader.left] at few
      omega
  | error late r' =>
      obtain ⟨advances, named⟩ := (stays r).error r late r' (.refl r) outcome
      exact .early refuses advances.position_le fun q mem => (named q mem).1

/-- A count in front of steps that need a byte for each of those that are counted. -/
theorem counted {fails : UInt32 → Nat → Decoder α} {f g : UInt32 → Decoder α}
    (refuses : ∀ (n : UInt32) (r : Reader), r.left < n.toNat →
      ∃ cause, fails n r.left r = .error cause r ∧ cause.RefusesCount r.position)
    (continues : ∀ n, Anticipates (f n) (g n))
    (needs : ∀ n, Yields (g n) fun bytes _ => n.toNat ≤ bytes.length)
    (stays : ∀ n w, StaysIn w (g n)) :
    Anticipates
      (do
        let n ← u32
        let bytes ← left
        if true && bytes < n.toNat then fails n bytes else f n)
      (do
        let n ← u32
        let bytes ← left
        if false && bytes < n.toNat then fails n bytes else g n) := by
  refine (refl u32).bind fun n r => (Anticipated.same (left r)).bind fun bytes r' looked => ?_
  cases looked
  simp only [Bool.true_and, Bool.false_and, Bool.false_eq_true, if_false, decide_eq_true_eq]
  by_cases few : r.left < n.toNat
  · obtain ⟨cause, failed, refused⟩ := refuses n r few
    rw [if_pos few, failed]
    exact early_of_left_lt (needs n) (stays n) few refused
  · rw [if_neg few]
    exact continues n r

/-- The same for counts of items, of whatever kind they are. -/
theorem count_bind {f g : UInt32 → Decoder α} (continues : ∀ n, Anticipates (f n) (g n))
    (needs : ∀ n, Yields (g n) fun bytes _ => n.toNat ≤ bytes.length)
    (stays : ∀ n w, StaysIn w (g n)) :
    Anticipates (Decoder.count true >>= f) (Decoder.count false >>= g) := by
  rw [Decoder.count_bind, Decoder.count_bind]
  exact counted (fun n r few => ⟨_, rfl, .items few⟩) continues needs stays

/-- Items none of which is empty take as many bytes at least as there are items. -/
theorem yields_items {item : Nat → Decoder α}
    (some : ∀ i, Yields (item i) fun bytes _ => bytes ≠ []) (n : Nat) :
    Yields (Decoder.items n item) fun bytes _ => n ≤ bytes.length := by
  refine (Yields.items some n).mono fun bytes as found => ?_
  obtain ⟨length, parts⟩ := found
  rw [← length]
  exact parts.length_le fun _ _ => id

theorem vector {item item' : Nat → Decoder α} (items : ∀ i, Anticipates (item i) (item' i))
    (some : ∀ i, Yields (item' i) fun bytes _ => bytes ≠ [])
    (stays : ∀ i w, StaysIn w (item' i)) :
    Anticipates (Decoder.vector true item) (Decoder.vector false item') :=
  count_bind (fun n => itemsFrom items n.toNat 0 []) (fun n => yields_items some n.toNat)
    fun n _ => StaysIn.items n.toNat fun i => stays i _

end Anticipates

end Decoder

end WasmMachine
