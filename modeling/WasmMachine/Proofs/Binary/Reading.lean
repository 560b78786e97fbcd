/-
# What a decoding step reads

Two judgements on decoding steps carry every statement about binaries.
`Reads step bytes a` says that the step takes exactly these bytes for `a`,
wherever they stand and whatever follows them.  `Yields step P` says that every
successful run takes a run of bytes off the window that stands in the relation
`P` to the value it gives.  The first is composed from left to right, the second
is proved like a weakest precondition: what is left to show of the rest of a step
already knows the bytes that went before.

Steps that look at the number of bytes left are not composed this way; the counts
in front of items are the one case, and `Reads.vector` settles it.
-/

import WasmMachine.Binary.Vector

namespace WasmMachine

theorem Reader.holds_natCast (r : Reader) (n : Nat) : r.holds n = true ↔ n ≤ r.rest.length := by
  simp [Reader.holds, Reader.left]

namespace Decoder

variable {α β : Type}

/-- The step takes exactly `bytes` for `a`, at every position and in front of
everything. -/
def Reads (step : Decoder α) (bytes : List UInt8) (a : α) : Prop :=
  ∀ (position : Nat) (rest : List UInt8),
    step ⟨position, bytes ++ rest⟩ = .ok a ⟨position + bytes.length, rest⟩

/-- Whatever a successful run takes off the window is related to its value. -/
def Yields (step : Decoder α) (P : List UInt8 → α → Prop) : Prop :=
  ∀ (r : Reader) (a : α) (r' : Reader), step r = .ok a r' →
    ∃ bytes, r.rest = bytes ++ r'.rest ∧ r'.position = r.position + bytes.length ∧ P bytes a

/-- A sequence of steps succeeds exactly when each of them does. -/
theorem bind_eq_ok_iff {first : Decoder α} {next : α → Decoder β} {r r' : Reader} {b : β} :
    (first >>= next) r = .ok b r' ↔
      ∃ a middle, first r = .ok a middle ∧ next a middle = .ok b r' := by
  simp only [bind, EStateM.bind]
  cases first r with
  | ok a middle =>
      constructor
      · exact fun ok => ⟨a, middle, rfl, ok⟩
      · rintro ⟨_, _, found, ok⟩
        cases found
        exact ok
  | error cause middle =>
      constructor
      · exact fun failed => nomatch failed
      · rintro ⟨_, _, found, _⟩
        cases found

@[simp]
theorem failHere_bind (cause : DecodeError) (next : α → Decoder β) :
    (failHere cause >>= next) = failHere cause := rfl

@[simp]
theorem failIn_bind (part : String) (cause : DecodeError) (next : α → Decoder β) :
    (failIn part cause >>= next) = failIn part cause := rfl

@[simp]
theorem throw_bind (cause : DecodeError) (next : α → Decoder β) :
    ((throw cause : Decoder α) >>= next) = throw cause := rfl

/-- A choice between steps in front of the rest. -/
theorem ite_bind (c : Prop) [Decidable c] (first second : Decoder α) (next : α → Decoder β) :
    ((if c then first else second) >>= next) = if c then first >>= next else second >>= next := by
  split
  · rfl
  · rfl

/-! ## Reading given bytes -/

namespace Reads

theorem pure (a : α) : Reads (Pure.pure a) [] a := fun _ _ => rfl

theorem bind {first : Decoder α} {next : α → Decoder β} {bytes more : List UInt8} {a : α} {b : β}
    (reads : Reads first bytes a) (continues : Reads (next a) more b) :
    Reads (first >>= next) (bytes ++ more) b := by
  intro position rest
  rw [bind_eq_ok_iff]
  refine ⟨a, ⟨position + bytes.length, more ++ rest⟩, ?_, ?_⟩
  · rw [List.append_assoc]
    exact reads position (more ++ rest)
  · rw [continues, List.length_append, Nat.add_assoc]

/-- A first step that takes one byte. -/
theorem bind_cons {first : Decoder α} {next : α → Decoder β} {byte : UInt8} {more : List UInt8}
    {a : α} {b : β} (reads : Reads first [byte] a) (continues : Reads (next a) more b) :
    Reads (first >>= next) (byte :: more) b :=
  bind reads continues

/-- The last step of a sequence often only puts the value together. -/
theorem bind_pure {first : Decoder α} {next : α → Decoder β} {bytes : List UInt8} {a : α} {b : β}
    (reads : Reads first bytes a) (gives : next a = Pure.pure b) :
    Reads (first >>= next) bytes b := by
  have continues : Reads (next a) [] b := by
    rw [gives]
    exact pure b
  simpa using bind reads continues

/-- A step that reads nothing may stand in front of any other. -/
theorem bind_nil {first : Decoder α} {next : α → Decoder β} {bytes : List UInt8} {a : α} {b : β}
    (reads : Reads first [] a) (continues : Reads (next a) bytes b) :
    Reads (first >>= next) bytes b := by
  simpa using bind reads continues

/-- A check that passes does not show. -/
theorem guard {c : Prop} [Decidable c] {fails step : Decoder α} {bytes : List UInt8} {a : α}
    (passes : ¬ c) (reads : Reads step bytes a) :
    Reads (if c then fails else step) bytes a := by
  rwa [if_neg passes]

theorem locate {step : Decoder α} {bytes : List UInt8} {a : α} (part : String)
    (reads : Reads step bytes a) : Reads (Decoder.locate part step) bytes a := by
  intro position rest
  simp only [Decoder.locate, reads position rest]

theorem inside {step : Decoder α} {bytes : List UInt8} {a : α} (place : Place)
    (reads : Reads step bytes a) : Reads (Decoder.inside place step) bytes a := by
  intro position rest
  simp only [Decoder.inside, reads position rest]

theorem byte (b : UInt8) : Reads Decoder.byte [b] b := fun _ _ => rfl

theorem bytes (bs : List UInt8) : Reads (Decoder.bytes bs.length) bs bs := by
  intro position rest
  have holds : Reader.holds ⟨position, bs ++ rest⟩ bs.length = true := by
    simp [Reader.holds_natCast]
  simp [Decoder.bytes, holds]

/-- A window of the right size is cut off in one piece. -/
theorem window (bs : List UInt8) (position : Nat) (rest : List UInt8) :
    Decoder.window bs.length ⟨position, bs ++ rest⟩ =
      .ok ⟨position, bs⟩ ⟨position + bs.length, rest⟩ := by
  have holds : Reader.holds ⟨position, bs ++ rest⟩ bs.length = true := by
    simp [Reader.holds_natCast]
  simp [Decoder.window, holds]

end Reads

/-! ## What successful runs have read -/

namespace Yields

theorem mono {step : Decoder α} {P Q : List UInt8 → α → Prop} (yields : Yields step P)
    (weaker : ∀ bytes a, P bytes a → Q bytes a) : Yields step Q := by
  intro r a r' ok
  obtain ⟨bytes, split, moved, holds⟩ := yields r a r' ok
  exact ⟨bytes, split, moved, weaker bytes a holds⟩

/-- What holds of all that a step takes holds of bytes it is known to take. -/
theorem of_reads {step : Decoder α} {P : List UInt8 → α → Prop} {bytes : List UInt8} {a : α}
    (yields : Yields step P) (reads : Reads step bytes a) : P bytes a := by
  obtain ⟨taken, split, -, holds⟩ := yields _ _ _ (reads 0 [])
  obtain rfl : bytes = taken := by simpa using split
  exact holds

theorem pure {P : List UInt8 → α → Prop} {a : α} (holds : P [] a) : Yields (Pure.pure a) P := by
  intro r b r' ok
  cases ok
  exact ⟨[], rfl, rfl, holds⟩

theorem throw {P : List UInt8 → α → Prop} (cause : DecodeError) :
    Yields (MonadExcept.throw cause) P := by
  intro r a r' ok
  cases ok

theorem failHere {P : List UInt8 → α → Prop} (cause : DecodeError) :
    Yields (Decoder.failHere cause) P := by
  intro r a r' ok
  cases ok

theorem failIn {P : List UInt8 → α → Prop} (part : String) (cause : DecodeError) :
    Yields (Decoder.failIn part cause) P := by
  intro r a r' ok
  cases ok

theorem bind {first : Decoder α} {next : α → Decoder β} {P : List UInt8 → α → Prop}
    {Q : List UInt8 → β → Prop} (yields : Yields first P)
    (continues : ∀ bytes a, P bytes a → Yields (next a) fun more b => Q (bytes ++ more) b) :
    Yields (first >>= next) Q := by
  intro r b r' ok
  obtain ⟨a, middle, ran, rest⟩ := bind_eq_ok_iff.mp ok
  obtain ⟨bytes, split, moved, holds⟩ := yields r a middle ran
  obtain ⟨more, split', moved', holds'⟩ := continues bytes a holds middle b r' rest
  refine ⟨bytes ++ more, ?_, ?_, holds'⟩
  · rw [split, split', List.append_assoc]
  · rw [moved', moved, List.length_append, Nat.add_assoc]

/-- A check only adds its outcome to what is known. -/
theorem ite {c : Prop} [Decidable c] {first second : Decoder α} {P : List UInt8 → α → Prop}
    (holds : c → Yields first P) (fails : ¬ c → Yields second P) :
    Yields (if c then first else second) P := by
  by_cases known : c
  · rw [if_pos known]
    exact holds known
  · rw [if_neg known]
    exact fails known

theorem locate {step : Decoder α} {P : List UInt8 → α → Prop} (part : String)
    (yields : Yields step P) : Yields (Decoder.locate part step) P := by
  intro r a r' ok
  apply yields r a r'
  unfold Decoder.locate at ok
  split at ok
  · next found => rw [found, ok]
  · simp [Decoder.failIn] at ok

theorem inside {step : Decoder α} {P : List UInt8 → α → Prop} (place : Place)
    (yields : Yields step P) : Yields (Decoder.inside place step) P := by
  intro r a r' ok
  apply yields r a r'
  unfold Decoder.inside at ok
  split at ok
  · next found => rw [found, ok]
  · cases ok

theorem byte : Yields Decoder.byte fun bs b => bs = [b] := by
  rintro ⟨position, rest⟩ b r' ok
  cases rest with
  | nil => cases ok
  | cons c rest =>
      cases ok
      exact ⟨[b], rfl, rfl, rfl⟩

theorem bytes (n : Nat) : Yields (Decoder.bytes n) fun bs read => bs = read ∧ read.length = n := by
  intro r read r' ok
  unfold Decoder.bytes at ok
  split at ok
  · next holds =>
      cases ok
      have enough : n ≤ r.rest.length := (r.holds_natCast n).mp holds
      refine ⟨r.rest.take n, ?_, ?_, rfl, ?_⟩ <;> simp [enough]
  · cases ok

/-- Looking at the number of bytes left takes nothing. -/
theorem left : Yields Decoder.left fun bs _ => bs = [] := by
  intro r n r' ok
  cases ok
  exact ⟨[], rfl, rfl, rfl⟩

end Yields

/-! ## Runs of items -/

/-- The bytes are put together of one part for each item, each part related to
its item. -/
inductive Parts (P : List UInt8 → α → Prop) : List UInt8 → List α → Prop
  | nil : Parts P [] []
  | cons {bytes more : List UInt8} {a : α} {as : List α} :
      P bytes a → Parts P more as → Parts P (bytes ++ more) (a :: as)

namespace Parts

variable {P : List UInt8 → α → Prop} {bytes : List UInt8} {as : List α}

/-- Every item has a part. -/
theorem forall_mem (parts : Parts P bytes as) : ∀ a ∈ as, ∃ part, P part a := by
  induction parts with
  | nil => simp
  | @cons part more a as holds _ ih =>
      intro x mem
      rcases List.mem_cons.mp mem with rfl | mem
      · exact ⟨part, holds⟩
      · exact ih x mem

/-- Items that are written in no more bytes than their parts have are together
written in no more bytes than there are. -/
theorem length_flatMap_le {item : α → List UInt8}
    (shorter : ∀ part a, P part a → (item a).length ≤ part.length) (parts : Parts P bytes as) :
    (as.flatMap item).length ≤ bytes.length := by
  induction parts with
  | nil => simp
  | cons holds _ ih =>
      have here := shorter _ _ holds
      simp only [List.flatMap_cons, List.length_append]
      omega

end Parts

theorem Reads.itemsFrom {item : Nat → Decoder α} {P : List UInt8 → α → Prop}
    (reads : ∀ i part a, P part a → Reads (item i) part a) {bytes : List UInt8} {as : List α}
    (parts : Parts P bytes as) (index : Nat) (done : List α) :
    Reads (Decoder.itemsFrom item as.length index done) bytes (done.reverse ++ as) := by
  induction parts generalizing index done with
  | nil => simpa [Decoder.itemsFrom] using Reads.pure done.reverse
  | @cons part more a as holds _ ih =>
      have continues := ih (index + 1) (a :: done)
      rw [List.reverse_cons, List.append_assoc] at continues
      exact Reads.bind (reads index part a holds) continues

/-- Items are read part by part. -/
theorem Reads.items {item : Nat → Decoder α} {P : List UInt8 → α → Prop}
    (reads : ∀ i part a, P part a → Reads (item i) part a) {bytes : List UInt8} {as : List α}
    (parts : Parts P bytes as) : Reads (Decoder.items as.length item) bytes as :=
  Reads.itemsFrom reads parts 0 []

theorem Yields.itemsFrom {item : Nat → Decoder α} {P : List UInt8 → α → Prop}
    (yields : ∀ i, Yields (item i) P) (n index : Nat) (done : List α) :
    Yields (Decoder.itemsFrom item n index done) fun bytes as =>
      ∃ new, as = done.reverse ++ new ∧ new.length = n ∧ Parts P bytes new := by
  induction n generalizing index done with
  | zero => exact Yields.pure ⟨[], by simp, rfl, .nil⟩
  | succ n ih =>
      refine Yields.bind (yields index) fun part a holds => ?_
      refine (ih (index + 1) (a :: done)).mono fun more as rest => ?_
      obtain ⟨new, equal, length, parts⟩ := rest
      exact ⟨a :: new, by simp [equal], by simp [length], .cons holds parts⟩

/-- What items have read is put together of their parts. -/
theorem Yields.items {item : Nat → Decoder α} {P : List UInt8 → α → Prop}
    (yields : ∀ i, Yields (item i) P) (n : Nat) :
    Yields (Decoder.items n item) fun bytes as => as.length = n ∧ Parts P bytes as := by
  refine (Yields.itemsFrom yields n 0 []).mono fun bytes as found => ?_
  obtain ⟨new, rfl, length, parts⟩ := found
  exact ⟨length, parts⟩

/-! ## Windows -/

/-- A step that fills a window of given size, and a step that goes on behind it. -/
def sized (cut : Decoder Reader) (step : Decoder α) (next : α → Reader → Decoder β) :
    Decoder β := do
  let inner ← cut
  let (a, unread) ← within inner step
  next a unread

/-- Where a failure is located does not matter to a step that succeeds. -/
theorem locate_eq_ok_iff {part : String} {step : Decoder α} {r r' : Reader} {a : α} :
    locate part step r = .ok a r' ↔ step r = .ok a r' := by
  unfold locate
  cases step r with
  | ok b middle => simp
  | error cause middle => simp [failIn]

/-- What a step reads in a window is all of the window, or the next step fails. -/
theorem Yields.sized {n : Nat} {cut : Decoder Reader} {step : Decoder α}
    {next : α → Reader → Decoder β} {P : List UInt8 → α → Prop} {Q : List UInt8 → β → Prop}
    (cuts : ∀ r inner r', cut r = .ok inner r' ↔ Decoder.window n r = .ok inner r')
    (yields : Yields step P)
    (fails : ∀ a unread, unread.left ≠ 0 → Yields (next a unread) fun _ _ => False)
    (continues : ∀ bytes a unread, bytes.length = n → P bytes a →
      Yields (next a unread) fun more b => Q (bytes ++ more) b) :
    Yields (Decoder.sized cut step next) Q := by
  intro r b r' ok
  obtain ⟨inner, outer, found, ok⟩ := bind_eq_ok_iff.mp ok
  obtain ⟨⟨a, unread⟩, outer', ran, ok⟩ := bind_eq_ok_iff.mp ok
  rw [cuts, Decoder.window] at found
  split at found
  case isFalse => cases found
  next enough =>
    cases found
    rw [Reader.holds_natCast] at enough
    unfold within at ran
    split at ran
    case h_2 => cases ran
    next found =>
      cases ran
      obtain ⟨bytes, split, -, holds⟩ := yields _ _ _ found
      by_cases all : unread.left = 0
      · have empty : unread.rest = [] := List.length_eq_zero_iff.mp all
        rw [empty, List.append_nil] at split
        simp only [Int.toNat_natCast] at split ok
        have length : bytes.length = n := by
          rw [← split, List.length_take, Nat.min_eq_left enough]
        obtain ⟨more, split', moved, holds'⟩ := continues bytes a unread length holds _ _ _ ok
        refine ⟨bytes ++ more, ?_, ?_, holds'⟩
        · rw [List.append_assoc, ← split', ← split, List.take_append_drop]
        · rw [moved, List.length_append, length, Nat.add_assoc]
      · obtain ⟨_, _, _, impossible⟩ := fails a unread all _ _ _ ok
        exact impossible.elim

/-- A step that reads all there is may stand in a window of that size. -/
theorem Reads.sized {cut : Decoder Reader} {step : Decoder α} {next : α → Reader → Decoder β}
    {payload more : List UInt8} {a : α} {b : β}
    (cuts : ∀ r inner r', cut r = .ok inner r' ↔ Decoder.window payload.length r = .ok inner r')
    (fills : ∀ position, step ⟨position, payload⟩ = .ok a ⟨position + payload.length, []⟩)
    (continues : ∀ position, Reads (next a ⟨position, []⟩) more b) :
    Reads (Decoder.sized cut step next) (payload ++ more) b := by
  intro position rest
  simp only [Decoder.sized, bind_eq_ok_iff]
  refine ⟨⟨position, payload⟩, ⟨position + payload.length, more ++ rest⟩, ?_,
    (a, ⟨position + payload.length, []⟩), ⟨position + payload.length, more ++ rest⟩, ?_, ?_⟩
  · rw [List.append_assoc, cuts]
    exact Reads.window payload position (more ++ rest)
  · simp only [within, fills]
  · rw [continues, List.length_append, Nat.add_assoc]

/-- The same when nothing is read behind the window. -/
theorem Reads.filled {cut : Decoder Reader} {step : Decoder α} {next : α → Reader → Decoder β}
    {payload : List UInt8} {a : α} {b : β}
    (cuts : ∀ r inner r', cut r = .ok inner r' ↔ Decoder.window payload.length r = .ok inner r')
    (fills : ∀ position, step ⟨position, payload⟩ = .ok a ⟨position + payload.length, []⟩)
    (continues : ∀ position, Reads (next a ⟨position, []⟩) [] b) :
    Reads (Decoder.sized cut step next) payload b := by
  have reads := Reads.sized cuts fills continues
  rwa [List.append_nil] at reads

theorem Reads.fills {step : Decoder α} {bytes : List UInt8} {a : α} (reads : Reads step bytes a)
    (position : Nat) : step ⟨position, bytes⟩ = .ok a ⟨position + bytes.length, []⟩ := by
  have whole := reads position []
  rwa [List.append_nil] at whole

end Decoder

end WasmMachine
