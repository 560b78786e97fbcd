/-
# Powers of numbers

Powers are those of the core library, also where an algebraic hierarchy with powers of its
own is in scope.  So a bound such as `2 ^ 32` is the same term in a definition, which knows
nothing of monoids, and in a statement about it.
-/

attribute [instance (1100), default_instance 20000] instPowNat
