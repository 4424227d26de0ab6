import CrapsStrategy.Binary64.Basic

/-!
# `CrapsStrategy.Decimal.Shortest`: the fewest digits that read back

A decimal names a finite double when it lies among the reals that
round to it: from half way to the double below to half way to the
one above, the ends included when the significand is even.
`Decimal.shortest` finds the decimal of fewest digits among those,
the nearest to the value of two, and the greater of two equally
near. The search goes from the grid of one leading digit to that of
seventeen and tries the value's two neighbours on each.
-/

set_option autoImplicit false

namespace CrapsStrategy

/-- The number `digits * 10 ^ exponent`. -/
structure Decimal where
  digits : Nat
  exponent : Int
deriving DecidableEq, Repr

namespace Decimal

def toRat (d : Decimal) : Rat :=
  d.digits * 10 ^ d.exponent

/-- The reals that round to a positive double, by their two ends. -/
structure Interval where
  low : Rat
  high : Rat
  closed : Bool

/-- The interval of a positive significand and exponent. Below a
power of two the doubles are twice as dense. -/
def Interval.ofDouble (significand : Nat) (exponent : Int) : Interval :=
  let unit : Rat := 2 ^ exponent
  let value := significand * unit
  let below := if significand = 4503599627370496 ∧ exponent ≠ -1074 then unit / 4 else unit / 2
  { low := value - below, high := value + unit / 2, closed := significand % 2 == 0 }

def Interval.contains (i : Interval) (q : Rat) : Bool :=
  if i.closed then decide (i.low ≤ q) && decide (q ≤ i.high)
  else decide (i.low < q) && decide (q < i.high)

/-- The decimal without trailing zeros in its digits. -/
def stripZeros (d : Decimal) : Decimal :=
  if _ : d.digits % 10 = 0 ∧ d.digits ≠ 0 then
    stripZeros { digits := d.digits / 10, exponent := d.exponent + 1 }
  else d
termination_by d.digits
decreasing_by omega

/-- The least `k` with `q < 10 ^ k`, for positive `q`. The binary
logarithm gives it up to one. -/
def magnitude (q : Rat) : Int :=
  let estimate := Binary64.floorLog2 q * 30103 / 100000
  if q < 10 ^ estimate then estimate
  else if q < 10 ^ (estimate + 1) then estimate + 1
  else estimate + 2

/-- The nearer neighbour of a value on the grid of `10 ^ exponent`
that lies in its interval, the greater of two equally near. -/
def onGrid (interval : Interval) (value : Rat) (exponent : Int) : Option Decimal :=
  let unit : Rat := 10 ^ exponent
  let below := (value / unit).floor.toNat
  let low : Decimal := { digits := below, exponent }
  let high : Decimal := { digits := below + 1, exponent }
  match interval.contains low.toRat, interval.contains high.toRat with
  | true, true => some (if value - low.toRat < high.toRat - value then low else high)
  | true, false => some low
  | false, true => some high
  | false, false => none

/-- The value of a significand and exponent, digit for digit. -/
def exact (significand : Nat) (exponent : Int) : Decimal :=
  if 0 ≤ exponent then { digits := significand * Nat.pow 2 exponent.toNat, exponent := 0 }
  else { digits := significand * Nat.pow 5 (-exponent).toNat, exponent }

/-- The shortest decimal that reads back to the double of a
significand and exponent. -/
def shortest (significand : Nat) (exponent : Int) : Decimal :=
  if significand = 0 then { digits := 0, exponent := 0 } else
  let value : Rat := significand * 2 ^ exponent
  let interval := Interval.ofDouble significand exponent
  let top := magnitude value
  let found := (List.range 17).findSome? fun (n : Nat) =>
    onGrid interval value (top - (n + 1))
  stripZeros (found.getD (exact significand exponent))

end Decimal

end CrapsStrategy
