/-
# Binaries split into sections

A binary is a header and sections, each a number, the size of its contents, and the
contents.  How the size is spelled is left open, since a number can be spelled in more than
one way.  The sections that a binary is split into are determined by its bytes.

`Builds` says what the sections make of a module, one after the other, without a reader
that moves on: each is admitted behind the last one and its contents put something into the
module.  A binary is accepted exactly when its sections build a module whose counts agree.
-/

import WasmMachine.Proofs.Module.Contents

namespace WasmMachine

open Decoder Leb128

/-- A section as it stands in a binary. -/
structure RawSection where
  id : UInt8
  size : List UInt8
  contents : List UInt8
  deriving DecidableEq

namespace RawSection

/-- The bytes of a section. -/
def bytes (s : RawSection) : List UInt8 := s.id :: (s.size ++ s.contents)

/-- The size in front of the contents is the number of their bytes. -/
def Sized (s : RawSection) : Prop :=
  ∃ n : UInt32, Unsigned s.size n ∧ s.contents.length = n.toNat

end RawSection

/-- The header and sections. -/
def Module.binary (sections : List RawSection) : List UInt8 :=
  Encode.u32le 0x6d736100 ++ (Encode.u32le 1 ++ sections.flatMap RawSection.bytes)

/-- The bytes are split at the boundaries of their sections. -/
structure Splits (bytes : List UInt8) (sections : List RawSection) : Prop where
  whole : bytes = Module.binary sections
  sized : ∀ s ∈ sections, s.Sized

/-! ## A split is unique -/

/-- A number of variable length ends where its bytes say so. -/
theorem Decoder.unsigned_append_inj {head head' more more' : List UInt8} {n n' : UInt32}
    (number : Unsigned head n) (number' : Unsigned head' n')
    (same : head ++ more = head' ++ more') : head = head' ∧ more = more' ∧ n = n' := by
  have read := Reads.u32 number 0 more
  rw [same, Reads.u32 number' 0 more'] at read
  obtain ⟨equal, length, rest⟩ : n' = n ∧ head'.length = head.length ∧ more' = more := by
    simpa using read
  exact ⟨List.append_inj_left same length.symm, rest.symm, equal.symm⟩

theorem RawSection.flatMap_bytes_inj {sections others : List RawSection}
    (sized : ∀ s ∈ sections, s.Sized) (sized' : ∀ s ∈ others, s.Sized)
    (same : sections.flatMap bytes = others.flatMap bytes) : sections = others := by
  induction sections generalizing others with
  | nil =>
      cases others with
      | nil => rfl
      | cons s others => simp [bytes] at same
  | cons s sections ih =>
      cases others with
      | nil => simp [bytes] at same
      | cons s' others =>
          obtain ⟨n, number, length⟩ := sized s List.mem_cons_self
          obtain ⟨n', number', length'⟩ := sized' s' List.mem_cons_self
          simp only [List.flatMap_cons, bytes, List.cons_append, List.append_assoc,
            List.cons.injEq] at same
          obtain ⟨sizes, rest, rfl⟩ := unsigned_append_inj number number' same.2
          have equal : s = s' := by
            obtain ⟨id, size, contents⟩ := s
            obtain ⟨id', size', contents'⟩ := s'
            obtain rfl : id = id' := same.1
            obtain rfl : size = size' := sizes
            obtain rfl : contents = contents' :=
              List.append_inj_left rest (length.trans length'.symm)
            rfl
          subst equal
          rw [ih (fun x mem => sized x (List.mem_cons_of_mem _ mem))
            (fun x mem => sized' x (List.mem_cons_of_mem _ mem)) (List.append_cancel_left rest)]

/-- A binary is split in one way only. -/
theorem Splits.unique {bytes : List UInt8} {sections others : List RawSection}
    (splits : Splits bytes sections) (splits' : Splits bytes others) : sections = others := by
  refine RawSection.flatMap_bytes_inj splits.sized splits'.sized ?_
  have same := splits.whole.symm.trans splits'.whole
  exact List.append_cancel_left (List.append_cancel_left same)

/-! ## Building a module -/

/-- The contents of a section of a kind put something into a module, wherever they stand. -/
def Contributes (early : Bool) (kind : SectionKind) (contents : List UInt8) (m m' : Module) :
    Prop :=
  ∀ position, sectionContents early m kind ⟨position, contents⟩ =
    .ok m' ⟨position + contents.length, []⟩

/-- Sections behind one of place `last` in the order make a module out of a module, and the
last of them that is not a custom one has the place `last'`. -/
inductive Builds (early : Bool) : Nat → Module → List RawSection → Nat → Module → Prop
  | nil {last : Nat} {m : Module} : Builds early last m [] last m
  | cons {last last' : Nat} {m m' m'' : Module} {s : RawSection} {kind : SectionKind}
      {rest : List RawSection} :
      s.id = kind.id → (kind ≠ .custom → last < kind.order) → s.Sized →
      Contributes early kind s.contents m m' →
      Builds early (if kind = .custom then last else kind.order) m' rest last' m'' →
      Builds early last m (s :: rest) last' m''

namespace Builds

variable {early : Bool} {last last' : Nat} {m m' : Module} {sections before rest : List RawSection}

theorem sized (builds : Builds early last m sections last' m') : ∀ s ∈ sections, s.Sized := by
  induction builds with
  | nil => exact fun _ mem => nomatch mem
  | cons _ _ sized _ _ ih =>
      intro s mem
      rcases List.mem_cons.mp mem with rfl | mem
      · exact sized
      · exact ih s mem

theorem append_iff : Builds early last m (before ++ rest) last' m' ↔
    ∃ between middle, Builds early last m before between middle ∧
      Builds early between middle rest last' m' := by
  induction before generalizing last m with
  | nil =>
      constructor
      · exact fun builds => ⟨last, m, .nil, builds⟩
      · rintro ⟨_, _, ⟨⟩, builds⟩
        exact builds
  | cons s before ih =>
      constructor
      · rintro (_ | ⟨numbered, above, sized, contributes, builds⟩)
        obtain ⟨between, middle, first, second⟩ := ih.mp builds
        exact ⟨between, middle, .cons numbered above sized contributes first, second⟩
      · rintro ⟨between, middle, _ | ⟨numbered, above, sized, contributes, first⟩, second⟩
        exact .cons numbered above sized contributes (ih.mpr ⟨between, middle, first, second⟩)

/-- Sections that make a module are read as that module. -/
theorem completes (builds : Builds early last m sections last' m') :
    Completes early last m (sections.flatMap RawSection.bytes) m' := by
  induction builds with
  | nil => exact .nil
  | @cons last last' m m' m'' s kind rest numbered above sized contributes _ ih =>
      obtain ⟨n, number, length⟩ := sized
      rw [List.flatMap_cons, RawSection.bytes, numbered]
      exact .sized number length above contributes ih

end Builds

theorem SectionKind.id_of_ofId? {id : UInt8} {kind : SectionKind} (found : ofId? id = some kind) :
    id = kind.id := by
  unfold ofId? at found
  split at found
  case h_14 => cases found
  all_goals
    next same =>
      cases found
      exact UInt8.toNat_inj.mp same

namespace Decoder

/-- The kind of a section is the one of its number, and the order admits it. -/
theorem sectionKind_eq_ok {last : Nat} {id : UInt8} {kind : SectionKind} {r r' : Reader}
    (ran : sectionKind last id r = .ok kind r') :
    r' = r ∧ id = kind.id ∧ (kind ≠ .custom → last < kind.order) := by
  unfold sectionKind at ran
  cases found : SectionKind.ofId? id with
  | none =>
      rw [found] at ran
      cases ran
  | some kind' =>
      have numbered := SectionKind.id_of_ofId? found
      rw [found] at ran
      by_cases ordinary : kind' = .custom
      · subst ordinary
        cases ran
        exact ⟨rfl, numbered, fun ordinary => absurd rfl ordinary⟩
      · have checked : (if kind'.order ≤ last then throw (.sectionOrder id) else Pure.pure kind' :
            Decoder SectionKind) r = .ok kind r' := by
          rw [← ran]
          cases kind' <;> first | rfl | exact absurd rfl ordinary
        by_cases behind : kind'.order ≤ last
        · rw [if_pos behind] at checked
          cases checked
        · rw [if_neg behind] at checked
          cases checked
          exact ⟨rfl, numbered, fun _ => Nat.not_le.mp behind⟩

/-- A window is the next so many bytes. -/
theorem window_eq_ok {n : Nat} {r r' inner : Reader} (cut : window n r = .ok inner r') :
    ∃ taken, r.rest = taken ++ r'.rest ∧ taken.length = n ∧ inner = ⟨r.position, taken⟩ := by
  unfold window at cut
  split at cut
  case isFalse => cases cut
  next enough =>
    cases cut
    rw [Reader.holds_natCast] at enough
    exact ⟨r.rest.take n, (List.take_append_drop n r.rest).symm,
      List.length_take_of_le enough, rfl⟩

theorem within_inside_eq_ok {α : Type} {place : Place} {step : Decoder α}
    {inner unread r r' : Reader} {a : α}
    (ran : within inner (inside place step) r = .ok (a, unread) r') :
    step inner = .ok a unread ∧ r = r' := by
  unfold within inside at ran
  cases found : step inner with
  | ok b left =>
      rw [found] at ran
      cases ran
      exact ⟨rfl, rfl⟩
  | error cause left =>
      rw [found] at ran
      cases ran

/-- Whatever sections are read builds the module that is read, and nothing is left. -/
theorem builds_of_sections {early : Bool} {fuel last : Nat} {m m' : Module} {r r' : Reader}
    (enough : r.rest.length < fuel) (ran : Decoder.sections early fuel last m r = .ok m' r') :
    ∃ sections last', r.rest = sections.flatMap RawSection.bytes ∧
      Builds early last m sections last' m' := by
  induction fuel generalizing last m r with
  | zero => exact absurd enough (Nat.not_lt_zero _)
  | succ fuel ih =>
      rw [sections_step] at ran
      obtain ⟨_, _, counted, ran⟩ := bind_eq_ok_iff.mp ran
      cases counted
      by_cases done : (r.left == 0) = true
      · rw [if_pos done] at ran
        cases ran
        exact ⟨[], last, List.length_eq_zero_iff.mp (by simpa [Reader.left] using done), .nil⟩
      · rw [if_neg done] at ran
        obtain ⟨id, behindId, first, ran⟩ := bind_eq_ok_iff.mp ran
        obtain ⟨kind, behindKind, known, ran⟩ := bind_eq_ok_iff.mp ran
        obtain ⟨size, behindSize, sizeRead, ran⟩ := bind_eq_ok_iff.mp ran
        obtain ⟨inner, behind, cut, ran⟩ := bind_eq_ok_iff.mp ran
        obtain ⟨⟨middle, unread⟩, _, filled, rest⟩ := bind_eq_ok_iff.mp ran
        obtain ⟨_, start, -, rfl⟩ := Yields.byte _ _ _ (locate_eq_ok_iff.mp first)
        obtain ⟨rfl, numbered, above⟩ := sectionKind_eq_ok known
        obtain ⟨head, next, -, number⟩ := Yields.u32 _ _ _ (locate_eq_ok_iff.mp sizeRead)
        obtain ⟨contents, window, length, rfl⟩ := window_eq_ok (locate_eq_ok_iff.mp cut)
        obtain ⟨contentsRead, rfl⟩ := within_inside_eq_ok filled
        dsimp only at rest
        by_cases whole : (unread.left != 0) = true
        · rw [if_pos whole] at rest
          cases rest
        · rw [if_neg whole] at rest
          have all : unread.rest = [] :=
            List.length_eq_zero_iff.mp (by simpa [Reader.left] using whole)
          have contributes : Contributes early kind contents m middle := fun position =>
            (Portable.sectionContents early m kind).fills (Yields.sectionContents early m kind)
              contentsRead all position
          have split : r.rest = (RawSection.mk id head contents).bytes ++ behind.rest := by
            simp only [start, next, window, RawSection.bytes, List.cons_append, List.nil_append,
              List.append_assoc]
          have shorter : behind.rest.length < fuel := by
            have total := congrArg List.length split
            simp only [RawSection.bytes, List.length_append, List.length_cons] at total
            omega
          obtain ⟨sections, last', more, builds⟩ := ih shorter rest
          refine ⟨⟨id, head, contents⟩ :: sections, last', ?_, ?_⟩
          · rw [split, more, List.flatMap_cons]
          · exact .cons numbered above ⟨size, number, length⟩ contributes builds

/-- Four bytes that are read as a number are the bytes of that number. -/
theorem u32le_eq_ok {n : UInt32} {r r' : Reader} {part : String}
    (ran : locate part u32le r = .ok n r') : r.rest = Encode.u32le n ++ r'.rest := by
  obtain ⟨bytes, split, -, four, rfl⟩ := Yields.u32le _ _ _ (locate_eq_ok_iff.mp ran)
  rw [split, u32le_littleEndian four]

end Decoder

namespace Module

variable {early : Bool} {bytes : List UInt8} {m : Module} {sections : List RawSection}

/-- A binary is accepted exactly when its sections build a consistent module, which is then
what was read. -/
theorem decodeWith_eq_ok_iff_builds : decodeWith early bytes = .ok m ↔
    ∃ sections last, bytes = binary sections ∧ Builds early 0 {} sections last m ∧
      m.Consistent := by
  constructor
  · intro decoded
    obtain ⟨r, ran⟩ := decodeWith_eq_ok_iff.mp decoded
    obtain ⟨-, -, -, -, consistent, -⟩ := Yields.module_ early _ _ _ ran
    rw [module_] at ran
    simp only [throw_bind] at ran
    obtain ⟨magic, r₁, first, ran⟩ := bind_eq_ok_iff.mp ran
    split at ran
    · cases ran
    · next isMagic =>
        obtain ⟨version, r₂, second, ran⟩ := bind_eq_ok_iff.mp ran
        split at ran
        · cases ran
        · next isVersion =>
            obtain ⟨_, _, counted, ran⟩ := bind_eq_ok_iff.mp ran
            cases counted
            obtain ⟨m', r₃, read, ran⟩ := bind_eq_ok_iff.mp ran
            obtain ⟨sections, last, whole, builds⟩ := builds_of_sections (Nat.lt_succ_self _) read
            have same : m' = m := by
              split at ran
              · cases ran
              · cases counted : m'.dataCount with
                | none =>
                    rw [counted] at ran
                    cases ran
                    rfl
                | some declared =>
                    rw [counted] at ran
                    dsimp only at ran
                    split at ran
                    · cases ran
                    · cases ran
                      rfl
            subst same
            refine ⟨sections, last, ?_, builds, consistent⟩
            have header := u32le_eq_ok first
            obtain rfl : magic = 0x6d736100 := by simpa using isMagic
            obtain rfl : version = 1 := by simpa using isVersion
            rw [u32le_eq_ok second, whole] at header
            exact header
  · rintro ⟨sections, last, rfl, builds, consistent⟩
    exact decodeWith_of_completes builds.completes consistent

end Module

end WasmMachine
