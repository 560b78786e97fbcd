/-
# A stack is its list of entries

The machine keeps its stack as operands at hand and levels below them.  Read as one list of
entries, bottom first, nothing of it is lost: every list of entries, in whatever order
values, labels and frames come in it, is that of exactly one stack.  So what an
instruction does to a stack can be stated on such lists.

A stack that is split at one of its markers falls into the stack under the marker and the
stack on top of it.
-/

import WasmMachine.Proofs.Reference.Levels

namespace WasmMachine

/-- Labels. -/
def Marker.isLabel : Marker → Bool
  | .label _ => true
  | .frame _ _ | .vacant => false

/-- Frames. -/
def Marker.isFrame : Marker → Bool
  | .frame _ _ => true
  | .label _ | .vacant => false

/-- Entries that are labels. -/
def Entry.isLabel : Entry → Bool
  | .marker m => m.isLabel
  | .value _ => false

/-- Entries that are frames. -/
def Entry.isFrame : Entry → Bool
  | .marker m => m.isFrame
  | .value _ => false

namespace Stack

/-- Put an entry on top. -/
def pushEntry (s : Stack) : Entry → Stack
  | .value v => s.push v
  | .marker m => s.mark m

/-- The stack of given entries, bottom first. -/
def ofEntries (es : List Entry) : Stack := es.foldl pushEntry (of [] [])

variable {s s' : Stack} {operands : List Value} {inner outer : List Level} {l : Level}

theorem entries_pushEntry (s : Stack) (e : Entry) : (s.pushEntry e).entries = s.entries ++ [e] := by
  cases e with
  | value v => simp [pushEntry, push, entries]
  | marker m => simp [pushEntry, mark, entries, levelEntries]

theorem entries_pushValues (s : Stack) (values : List Value) :
    (s.pushValues values).entries = s.entries ++ values.map .value := by
  simp [pushValues, entries]

/-- What is over and under a marker. -/
theorem entries_of_append (operands : List Value) (inner outer : List Level) (l : Level) :
    (of operands (inner ++ l :: outer)).entries =
      (of l.below outer).entries ++ .marker l.marker :: (of operands inner).entries := by
  simp [of, entries, levelEntries]

theorem entries_foldl_pushEntry (es : List Entry) (s : Stack) :
    (es.foldl pushEntry s).entries = s.entries ++ es := by
  induction es generalizing s with
  | nil => rw [List.foldl_nil, List.append_nil]
  | cons e es ih => rw [List.foldl_cons, ih, entries_pushEntry, List.append_assoc]; rfl

theorem entries_ofEntries (es : List Entry) : (ofEntries es).entries = es :=
  entries_foldl_pushEntry es (of [] [])

theorem foldl_pushEntry_values (s : Stack) (values : List Value) :
    (values.map Entry.value).foldl pushEntry s = s.pushValues values := by
  induction values generalizing s with
  | nil => rfl
  | cons v values ih =>
      rw [List.map_cons, List.foldl_cons, ih, pushEntry, push, pushValues, pushValues]
      simp

theorem ofEntries_append_values (es : List Entry) (values : List Value) :
    ofEntries (es ++ values.map .value) = (ofEntries es).pushValues values := by
  rw [ofEntries, List.foldl_append, foldl_pushEntry_values, ofEntries]

theorem ofEntries_of (operands : List Value) (levels : List Level) :
    ofEntries (of operands levels).entries = of operands levels := by
  induction levels generalizing operands with
  | nil =>
      have values : (of operands []).entries = [] ++ operands.reverse.map .value := rfl
      rw [values, ofEntries_append_values]
      exact eq_of (by simp [pushValues, ofEntries, of]) rfl
  | cons l rest ih =>
      have split : (of operands (l :: rest)).entries =
          (of l.below rest).entries ++ [.marker l.marker] ++ operands.reverse.map .value := by
        have split := entries_of_append operands [] rest l
        rw [List.nil_append] at split
        rw [split, List.append_cons]
        rfl
      rw [split, ofEntries_append_values, ofEntries, List.foldl_append, ← ofEntries, ih]
      exact eq_of (by simp [pushValues, pushEntry, mark]) rfl

/-- The entries of a stack make it up again. -/
theorem ofEntries_entries (s : Stack) : ofEntries s.entries = s := by
  have whole : s = of s.operands s.levels := eq_of rfl rfl
  rw [whole, ofEntries_of]

/-- Stacks with the same entries are the same. -/
theorem eq_of_entries (same : s.entries = s'.entries) : s = s' := by
  rw [← ofEntries_entries s, same, ofEntries_entries]

/-! ## Counting markers -/

theorem countP_isLabel_entries (operands : List Value) (levels : List Level) :
    (of operands levels).entries.countP Entry.isLabel = levels.countP (·.marker.isLabel) := by
  induction levels generalizing operands with
  | nil => simp [of, entries, Function.comp_def, Entry.isLabel]
  | cons l rest ih =>
      have split := entries_of_append operands [] rest l
      rw [List.nil_append] at split
      have none : (of operands []).entries.countP Entry.isLabel = 0 := by
        simp [of, entries, Function.comp_def, Entry.isLabel]
      rw [split, List.countP_append, List.countP_cons, ih, none, List.countP_cons, Nat.zero_add]
      rfl

theorem all_entries_iff (operands : List Value) (levels : List Level) :
    (∀ e ∈ (of operands levels).entries, e.isFrame = false) ↔
      ∀ l ∈ levels, l.marker.isFrame = false := by
  induction levels generalizing operands with
  | nil => simp [of, entries, Entry.isFrame]
  | cons l rest ih =>
      have split := entries_of_append operands [] rest l
      rw [List.nil_append] at split
      have none : ∀ e ∈ (of operands []).entries, e.isFrame = false := by
        simp [of, entries, Entry.isFrame]
      rw [split, List.forall_mem_append, List.forall_mem_cons, ih, List.forall_mem_cons]
      exact ⟨fun ⟨below, here, _⟩ => ⟨here, below⟩, fun ⟨here, below⟩ => ⟨below, here, none⟩⟩

/-! ## Splitting at a marker -/

/-- A stack whose entries split at a marker, with values on top, splits there: the levels
inside lie over those outside, and the values are the topmost operands. -/
theorem entries_eq_iff {target : Marker} {under between : List Entry} {values : List Value} :
    s.entries = under ++ .marker target :: (between ++ values.map .value) ↔
      ∃ inner below outer rest, s.levels = inner ++ ⟨target, below⟩ :: outer ∧
        s.operands = values.reverse ++ rest ∧
        under = (of below outer).entries ∧ between = (of rest inner).entries := by
  have topmost (rest : List Value) (inner : List Level) :
      (of (values.reverse ++ rest) inner).entries =
        (of rest inner).entries ++ values.map .value := by
    rw [← entries_pushValues, pushValues, of, of]
  constructor
  · intro split
    let lower := ofEntries under
    let upper := ofEntries between
    have whole : s = of (values.reverse ++ upper.operands)
        (upper.levels ++ ⟨target, lower.operands⟩ :: lower.levels) := by
      apply eq_of_entries
      have same_lower : of lower.operands lower.levels = lower := (eq_of rfl rfl).symm
      have same_upper : of upper.operands upper.levels = upper := (eq_of rfl rfl).symm
      rw [entries_of_append, topmost, same_lower, same_upper, entries_ofEntries, entries_ofEntries,
        split]
    refine ⟨upper.levels, lower.operands, lower.levels, upper.operands, ?_, ?_, ?_, ?_⟩
    · rw [whole, of]
    · rw [whole, of]
    · rw [← eq_of (s := lower) rfl rfl, entries_ofEntries]
    · rw [← eq_of (s := upper) rfl rfl, entries_ofEntries]
  · rintro ⟨inner, below, outer, rest, levels, operands, rfl, rfl⟩
    rw [eq_of operands levels, entries_of_append, topmost]

end Stack

end WasmMachine
