/-
# Custom sections are transparent

A custom section is remembered and otherwise ignored.  Whatever custom sections a module has
when a section is admitted, the section puts the same into it, and a custom section does not
move the place behind which the next section must come.  So a custom section can be put
between any two sections of a binary, or taken out, and all that changes is the list of
custom sections, at the place of the section in the binary.

The other sections come in one order, which their numbers follow except for the data count.
-/

import Mathlib.Data.List.Forall2
import WasmMachine.Proofs.Module.Splitting

namespace WasmMachine

open Decoder

/-- The numbers of the sections that are not custom ones, in the order in which they come:
the number of data segments stands in front of the function bodies. -/
def Module.canonicalIds : List UInt8 := [1, 2, 3, 4, 5, 6, 7, 8, 9, 12, 10, 11]

/-- The section holds the name of a custom section, however its length is spelled, and its
data. -/
structure CustomSection.SpelledBy (c : CustomSection) (s : RawSection) : Prop where
  numbered : s.id = 0
  sized : s.Sized
  contents : ∃ title, Named title c.name ∧ s.contents = title ++ c.data

namespace Contributes

variable {early : Bool} {kind : SectionKind} {contents : List UInt8} {m m' : Module}

theorem of_ordinary (contributes : Contributes early kind contents m m')
    (ordinary : kind ≠ .custom) : m'.customs = m.customs ∧ ∀ cs : List CustomSection,
      Contributes early kind contents { m with customs := cs } { m' with customs := cs } :=
  ⟨(sectionContents_of_ordinary ordinary (contributes 0)).1, fun cs position =>
    (sectionContents_of_ordinary ordinary (contributes position)).2 cs⟩

theorem of_named {c : CustomSection} {title : List UInt8} (named : Named title c.name)
    (m : Module) :
    Contributes early .custom (title ++ c.data) m { m with customs := m.customs ++ [c] } :=
  fun position => sectionContents_custom_eq_ok_iff.mpr ⟨c, customSection_fills named position, rfl⟩

theorem named_of_custom (contributes : Contributes early .custom contents m m') :
    ∃ c : CustomSection, m' = { m with customs := m.customs ++ [c] } ∧
      ∃ title, Named title c.name ∧ contents = title ++ c.data := by
  obtain ⟨c, read, put⟩ := sectionContents_custom_eq_ok_iff.mp (contributes 0)
  exact ⟨c, put, customSection_eq_ok read⟩

end Contributes

theorem SectionKind.id_eq_zero_iff {kind : SectionKind} : kind.id = 0 ↔ kind = .custom := by
  cases kind <;> decide

namespace Builds

variable {early : Bool} {last last' : Nat} {m m' : Module} {sections rest : List RawSection}

/-- A custom section is admitted everywhere, and the sections behind it are none the wiser. -/
theorem custom {c : CustomSection} {s : RawSection} (spelled : c.SpelledBy s)
    (builds : Builds early last { m with customs := m.customs ++ [c] } rest last' m') :
    Builds early last m (s :: rest) last' m' := by
  obtain ⟨title, named, contents⟩ := spelled.contents
  have numbered : s.id = SectionKind.custom.id := spelled.numbered
  have contributes : Contributes early .custom s.contents m
      { m with customs := m.customs ++ [c] } := contents ▸ .of_named named m
  exact .cons numbered (absurd rfl) spelled.sized contributes builds

theorem of_custom {s : RawSection} (builds : Builds early last m (s :: rest) last' m')
    (numbered : s.id = 0) : ∃ c : CustomSection,
      Builds early last { m with customs := m.customs ++ [c] } rest last' m' := by
  obtain _ | ⟨numbered', -, -, contributes, builds⟩ := builds
  obtain rfl := SectionKind.id_eq_zero_iff.mp (numbered'.symm.trans numbered)
  obtain ⟨c, rfl, -⟩ := contributes.named_of_custom
  exact ⟨c, builds⟩

/-- Sections put the custom ones among them behind those that the module has, whatever they
are, and make the same of the rest of the module. -/
theorem customs (builds : Builds early last m sections last' m') :
    ∃ own, List.Forall₂ CustomSection.SpelledBy own (sections.filter (·.id = 0)) ∧
      m'.customs = m.customs ++ own ∧ ∀ cs : List CustomSection,
        Builds early last { m with customs := cs } sections last'
          { m' with customs := cs ++ own } := by
  induction builds with
  | nil =>
      refine ⟨[], .nil, (List.append_nil _).symm, fun cs => ?_⟩
      rw [List.append_nil]
      exact .nil
  | @cons last last' m middle m' s kind rest numbered above sized contributes _ ih =>
      obtain ⟨own, spelled, customs, anywhere⟩ := ih
      by_cases ordinary : kind = .custom
      · subst ordinary
        obtain ⟨c, rfl, contents⟩ := contributes.named_of_custom
        refine ⟨c :: own, ?_, ?_, fun cs => ?_⟩
        · rw [List.filter_cons_of_pos (by simp [numbered, SectionKind.id])]
          exact .cons ⟨numbered, sized, contents⟩ spelled
        · simpa using customs
        · refine custom ⟨numbered, sized, contents⟩ ?_
          simpa using anywhere (cs ++ [c])
      · obtain ⟨kept, moved⟩ := contributes.of_ordinary ordinary
        refine ⟨own, ?_, kept ▸ customs, fun cs => ?_⟩
        · rw [List.filter_cons_of_neg]
          · exact spelled
          · simpa [numbered, SectionKind.id_eq_zero_iff] using ordinary
        · exact .cons numbered above sized (moved cs) (anywhere cs)

/-- A module made of sections alone has as many custom ones as there are among these. -/
theorem countP_eq (builds : Builds early last {} sections last' m') :
    sections.countP (·.id = 0) = m'.customs.length := by
  obtain ⟨own, spelled, customs, -⟩ := builds.customs
  rw [customs, List.countP_eq_length_filter, ← spelled.length_eq]
  rfl

/-- The kinds behind a place in the order. -/
private theorem order_sublist {last : Nat} {kind : SectionKind} (ordinary : kind ≠ .custom)
    (above : last < kind.order) :
    (kind :: Module.sectionOrder.dropLast.filter (kind.order < ·.order)).Sublist
      (Module.sectionOrder.dropLast.filter (last < ·.order)) := by
  have here : kind :: Module.sectionOrder.dropLast.filter (kind.order < ·.order) =
      Module.sectionOrder.dropLast.filter (kind.order ≤ ·.order) := by
    cases kind <;> first | rfl | exact absurd rfl ordinary
  rw [here]
  refine List.monotone_filter_right _ fun other from_ => ?_
  simp only [decide_eq_true_eq] at from_ ⊢
  omega

/-- Sections behind a place in the order come in that order, each of them once at most. -/
theorem ordered (builds : Builds early last m sections last' m') :
    ((sections.filter (·.id ≠ 0)).map (·.id)).Sublist
      ((Module.sectionOrder.dropLast.filter (last < ·.order)).map SectionKind.id) := by
  induction builds with
  | nil => exact List.nil_sublist _
  | @cons last last' m middle m' s kind rest numbered above sized _ _ ih =>
      by_cases ordinary : kind = .custom
      · subst ordinary
        rw [List.filter_cons_of_neg (by simp [numbered, SectionKind.id])]
        exact ih
      · have kept : s.id ≠ 0 := by simpa [numbered, SectionKind.id_eq_zero_iff] using ordinary
        rw [List.filter_cons_of_pos (by simpa using kept), List.map_cons, numbered]
        rw [if_neg ordinary] at ih
        exact (ih.cons_cons kind.id).trans ((order_sublist ordinary (above ordinary)).map _)

end Builds

namespace Module

variable {bytes : List UInt8} {m : Module}

theorem Consistent.with_customs (consistent : m.Consistent) (cs : List CustomSection) :
    { m with customs := cs }.Consistent :=
  ⟨consistent.bodies, consistent.dataCount⟩

private theorem insertIdx_length_append {α : Type} (front back : List α) (a : α) :
    (front ++ back).insertIdx front.length a = front ++ a :: back := by
  induction front with
  | nil => rfl
  | cons b front ih => exact congrArg (b :: ·) ih

/-- A binary that is accepted is split into sections in one way.  Those that are not custom
sections come in order, each once at most, and the custom sections of the module are the
others.  With a custom section put between any two of its sections, or without one that it
has, the binary is accepted with that custom section put into the list of them, or taken out
of it, and nothing else is changed. -/
theorem splits_of_decode (decoded : decode bytes = .ok m) :
    ∃ sections, Splits bytes sections ∧ (∀ others, Splits bytes others → others = sections) ∧
      ((sections.filter (·.id ≠ 0)).map (·.id)).Sublist canonicalIds ∧
      List.Forall₂ CustomSection.SpelledBy m.customs (sections.filter (·.id = 0)) ∧
      (∀ before after s c, sections = before ++ after → c.SpelledBy s →
        decode (binary (before ++ s :: after)) =
          .ok { m with customs := m.customs.insertIdx (before.countP (·.id = 0)) c }) ∧
      ∀ before s after, sections = before ++ s :: after → s.id = 0 →
        decode (binary (before ++ after)) =
          .ok { m with customs := m.customs.eraseIdx (before.countP (·.id = 0)) } := by
  obtain ⟨sections, last, rfl, builds, consistent⟩ := decodeWith_eq_ok_iff_builds.mp decoded
  have splits : Splits (binary sections) sections := ⟨rfl, builds.sized⟩
  obtain ⟨own, spelled, customs, -⟩ := builds.customs
  rw [← show m.customs = own from customs] at spelled
  refine ⟨sections, splits, fun others splits' => splits'.unique splits, builds.ordered, spelled,
    ?_, ?_⟩
  · rintro before after s c rfl spelled
    obtain ⟨between, middle, first, second⟩ := Builds.append_iff.mp builds
    obtain ⟨own, -, customs, anywhere⟩ := second.customs
    have inserted : m.customs.insertIdx (before.countP (·.id = 0)) c =
        (middle.customs ++ [c]) ++ own := by
      rw [first.countP_eq, customs, insertIdx_length_append, List.append_cons]
    refine decodeWith_eq_ok_iff_builds.mpr ⟨_, last, rfl, ?_, consistent.with_customs _⟩
    rw [inserted]
    exact Builds.append_iff.mpr ⟨between, middle, first, .custom spelled (anywhere _)⟩
  · rintro before s after rfl numbered
    obtain ⟨between, middle, first, second⟩ := Builds.append_iff.mp builds
    obtain ⟨c, behind⟩ := second.of_custom numbered
    obtain ⟨own, -, customs, anywhere⟩ := behind.customs
    have erased : m.customs.eraseIdx (before.countP (·.id = 0)) = middle.customs ++ own := by
      rw [first.countP_eq, customs, List.append_assoc, List.singleton_append,
        ← insertIdx_length_append, List.eraseIdx_insertIdx_self]
    refine decodeWith_eq_ok_iff_builds.mpr ⟨_, last, rfl, ?_, consistent.with_customs _⟩
    rw [erased]
    exact Builds.append_iff.mpr ⟨between, middle, first, anywhere _⟩

/-- A custom section named `a` between an empty section of types and an empty section of
functions, whose size is spelled in two bytes. -/
def annotatedSections : List RawSection :=
  [⟨1, [1], [0]⟩, ⟨0, [3], [1, 97, 5]⟩, ⟨3, [0x81, 0], [0]⟩]

/-- What these sections make. -/
def annotatedModule : Module := { customs := [⟨"a", [5]⟩] }

theorem splits_of_decode_annotatedSections :
    decode (binary annotatedSections) = .ok annotatedModule ∧
      ∃ sections, Splits (binary annotatedSections) sections ∧
        (∀ others, Splits (binary annotatedSections) others → others = sections) ∧
        ((sections.filter (·.id ≠ 0)).map (·.id)).Sublist canonicalIds ∧
        List.Forall₂ CustomSection.SpelledBy annotatedModule.customs
          (sections.filter (·.id = 0)) ∧
        (∀ before after s c, sections = before ++ after → c.SpelledBy s →
          decode (binary (before ++ s :: after)) = .ok { annotatedModule with
            customs := annotatedModule.customs.insertIdx (before.countP (·.id = 0)) c }) ∧
        ∀ before s after, sections = before ++ s :: after → s.id = 0 →
          decode (binary (before ++ after)) = .ok { annotatedModule with
            customs := annotatedModule.customs.eraseIdx (before.countP (·.id = 0)) } := by
  have decoded : decode (binary annotatedSections) = .ok annotatedModule := rfl
  exact ⟨decoded, splits_of_decode decoded⟩

end Module

end WasmMachine
