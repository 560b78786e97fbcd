/-
# Options

What an embedder can choose about the machine: how deep calls may nest, and which
operand a `select` keeps.
-/

namespace WasmMachine

/-- Which of its two operands a `select` keeps when its condition is not zero: the
one on top, which was pushed last, or the one at the bottom. -/
inductive SelectOrder
  | topOnTrue
  | bottomOnTrue
  deriving DecidableEq, Repr

namespace SelectOrder

/-- The order of a number; only 1 stands for the bottom. -/
def ofNumber (n : Nat) : SelectOrder := if n = 1 then .bottomOnTrue else .topOnTrue

/-- The name of an order. -/
def name : SelectOrder → String
  | .topOnTrue => "top-on-true"
  | .bottomOnTrue => "bottom-on-true"

/-- The order of a name. -/
def ofName? (s : String) : Option SelectOrder :=
  [.topOnTrue, .bottomOnTrue].find? fun o => o.name == s

end SelectOrder

/-- The options of a machine. A depth that is not positive stands for the default
depth. -/
structure Options where
  maxCallDepth : Int := 1000
  select : SelectOrder := .topOnTrue
  deriving DecidableEq, Repr

/-- The number of calls that may be active at once. -/
def Options.callLimit (o : Options) : Nat :=
  if o.maxCallDepth ≤ 0 then 1000 else o.maxCallDepth.toNat

end WasmMachine
