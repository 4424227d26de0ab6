/-!
# `CrapsStrategy.Table.Point`: point numbers

A come-out roll of one of six numbers sets the point.
-/

set_option autoImplicit false

namespace CrapsStrategy

/-- The numbers that can be a point. -/
def pointNumbers : List Nat :=
  [4, 5, 6, 8, 9, 10]

/-- Whether a number can be a point. -/
def isPoint (n : Nat) : Bool :=
  pointNumbers.contains n

end CrapsStrategy
