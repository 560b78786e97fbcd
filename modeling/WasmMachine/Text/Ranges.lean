/-
# Ranges of code points

A set of code points as a list of closed ranges, in increasing order.
-/

namespace WasmMachine.Text

/-- A set of code points as closed ranges. -/
abbrev Ranges := List (Nat × Nat)

/-- Membership in one of the ranges. -/
def Ranges.holds (ranges : Ranges) (n : Nat) : Bool :=
  ranges.any fun (first, last) => first ≤ n && n ≤ last

end WasmMachine.Text
