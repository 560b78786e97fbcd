/-
# Runs of cells

Memories are arrays of bytes and tables are arrays of references.  Both are read
and written in runs of neighbouring cells: `read?` gives a run that lies inside
the array, and `overwrite` replaces one, leaving all other cells as they are.
-/

namespace WasmMachine.Cells

variable {α : Type}

/-- The `count` cells from `start` on, if the array reaches that far. -/
def read? (cells : Array α) (start count : Nat) : Option (List α) :=
  if start + count ≤ cells.size then some (cells.extract start (start + count)).toList else none

/-- Put items into the cells from `start` on. Items for which there is no cell are
left out; the array keeps its size. -/
def overwrite (cells : Array α) (start : Nat) : List α → Array α
  | [] => cells
  | item :: rest => overwrite (cells.setIfInBounds start item) (start + 1) rest

/-- Add copies of one item at the end. -/
def append (cells : Array α) (count : Nat) (item : α) : Array α :=
  cells ++ Array.replicate count item

@[simp] theorem size_overwrite (cells : Array α) (start : Nat) (items : List α) :
    (overwrite cells start items).size = cells.size := by
  induction items generalizing cells start with
  | nil => rfl
  | cons item rest ih => simp [overwrite, ih]

@[simp] theorem size_append (cells : Array α) (count : Nat) (item : α) :
    (append cells count item).size = cells.size + count := by
  simp [append]

end WasmMachine.Cells
