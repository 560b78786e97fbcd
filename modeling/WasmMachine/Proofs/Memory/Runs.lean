/-
# Writing and reading runs of cells

What is read from a run of cells are the items at its positions.  What is written to a run
that lies in the array is found there afterwards, and all other cells are as they were.
From this follow the two shapes that instructions write in: a part of a list, and copies of
one item.
-/

import WasmMachine.Store.Cells

namespace WasmMachine.Cells

variable {α : Type} {cells : Array α} {items source : List α} {start target count i j : Nat}

/-! ## Single cells -/

theorem getElem?_overwrite_outside (outside : j < start ∨ start + items.length ≤ j) :
    (overwrite cells start items)[j]? = cells[j]? := by
  induction items generalizing cells start with
  | nil => rfl
  | cons item rest ih =>
      rw [List.length_cons] at outside
      rw [overwrite, ih (by omega), Array.getElem?_setIfInBounds_ne (by omega)]

theorem getElem?_overwrite_inside (fits : start + items.length ≤ cells.size)
    (inside : i < items.length) : (overwrite cells start items)[start + i]? = items[i]? := by
  induction items generalizing cells start i with
  | nil => cases inside
  | cons item rest ih =>
      rw [List.length_cons] at fits inside
      rw [overwrite]
      cases i with
      | zero =>
          rw [getElem?_overwrite_outside (.inl (by omega)), Nat.add_zero,
            Array.getElem?_setIfInBounds_self_of_lt (by omega), List.getElem?_cons_zero]
      | succ i =>
          have here : start + (i + 1) = start + 1 + i := by omega
          rw [here, ih (by rw [Array.size_setIfInBounds]; omega) (by omega),
            List.getElem?_cons_succ]

/-! ## Reading -/

theorem read?_of_le (fits : start + count ≤ cells.size) :
    read? cells start count = some ((cells.toList.drop start).take count) := by
  rw [read?, if_pos fits, Array.toList_extract, List.extract_eq_take_drop, Nat.add_sub_cancel_left]

theorem read?_of_lt (short : cells.size < start + count) : read? cells start count = none :=
  if_neg (Nat.not_le.mpr short)

theorem length_run (fits : start + count ≤ source.length) :
    ((source.drop start).take count).length = count := by
  rw [List.length_take, List.length_drop]
  omega

theorem getElem?_run (inside : i < count) :
    ((source.drop start).take count)[i]? = source[start + i]? := by
  rw [List.getElem?_take_of_lt inside, List.getElem?_drop]

/-- Runs are told apart only by what their cells hold. -/
theorem run_congr {items items' : List α} {start start' : Nat}
    (same : ∀ i, i < count → items[start + i]? = items'[start' + i]?) :
    (items.drop start).take count = (items'.drop start').take count := by
  apply List.ext_getElem?
  intro i
  by_cases inside : i < count
  · rw [getElem?_run inside, getElem?_run inside, same i inside]
  · rw [List.getElem?_take_eq_none (Nat.not_lt.mp inside),
      List.getElem?_take_eq_none (Nat.not_lt.mp inside)]

/-! ## Shapes of writing -/

/-- An array is another one whose cells from `target` on hold the `count` items that a list
holds from `start` on. -/
structure Copied (source : List α) (start : Nat) (before after : Array α) (target count : Nat) :
    Prop where
  size : after.size = before.size
  inside : ∀ i, i < count → after[target + i]? = source[start + i]?
  outside : ∀ j, j < target ∨ target + count ≤ j → after[j]? = before[j]?

/-- An array is another one whose `count` cells from `target` on hold one item. -/
structure Filled (item : α) (before after : Array α) (target count : Nat) : Prop where
  size : after.size = before.size
  inside : ∀ i, i < count → after[target + i]? = some item
  outside : ∀ j, j < target ∨ target + count ≤ j → after[j]? = before[j]?

/-- To write a part of a list is to copy it. The part was taken before anything is written,
so it does not matter where it comes from. -/
theorem copied_overwrite (there : start + count ≤ source.length)
    (fits : target + count ≤ cells.size) :
    Copied source start cells (overwrite cells target ((source.drop start).take count)) target
      count := by
  have length := length_run there
  refine ⟨size_overwrite _ _ _, fun i inside => ?_, fun j outside => ?_⟩
  · rw [getElem?_overwrite_inside (by omega) (by omega), getElem?_run inside]
  · rw [getElem?_overwrite_outside (by rwa [length])]

/-- To write a whole list is to copy all of it. -/
theorem copied_overwrite_whole (fits : target + items.length ≤ cells.size) :
    Copied items 0 cells (overwrite cells target items) target items.length := by
  have copied := copied_overwrite (Nat.le_of_eq (Nat.zero_add items.length)) fits
  rwa [List.drop_zero, List.take_length] at copied

theorem filled_overwrite (item : α) (fits : target + count ≤ cells.size) :
    Filled item cells (overwrite cells target (List.replicate count item)) target count := by
  have length : (List.replicate count item).length = count := List.length_replicate
  refine ⟨size_overwrite _ _ _, fun i inside => ?_, fun j outside => ?_⟩
  · rw [getElem?_overwrite_inside (by omega) (by omega), List.getElem?_replicate, if_pos inside]
  · rw [getElem?_overwrite_outside (by rwa [length])]

/-- What was copied is read back. -/
theorem Copied.run_inside {before after : Array α}
    (copied : Copied source start before after target count) :
    (after.toList.drop target).take count = (source.drop start).take count :=
  run_congr fun i inside => by rw [Array.getElem?_toList, copied.inside i inside]

/-- What does not overlap the copy is read as before. -/
theorem Copied.run_outside {before after : Array α} {start' count' : Nat}
    (copied : Copied source start before after target count)
    (disjoint : start' + count' ≤ target ∨ target + count ≤ start') :
    (after.toList.drop start').take count' = (before.toList.drop start').take count' :=
  run_congr fun i inside => by
    rw [Array.getElem?_toList, Array.getElem?_toList, copied.outside _ (by omega)]

/-- Only nothing can be copied from nothing, and that changes nothing. -/
theorem Copied.eq_of_nil {before after : Array α}
    (copied : Copied [] start before after target count) (there : ¬ 0 < start + count) :
    after = before :=
  Array.ext_getElem? fun j => copied.outside j (by omega)

end WasmMachine.Cells
