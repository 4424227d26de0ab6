import CrapsStrategy.Binary64.Integral
import CrapsStrategy.Table.BetKey
import CrapsStrategy.Table.OddsPolicy

/-!
# `CrapsStrategy.Table.Legal`: amounts a table accepts

A raw amount becomes the nearest legal one in whole dollars, zero
where there is none. Flat and place bets go up: at least the table
level, then to the next multiple of the bet's step. Odds go down: at
most the policy's multiple of the line bet, then to the last multiple
of a step that pays in whole dollars. Amounts end at the greatest
64-bit integer.
-/

set_option autoImplicit false

namespace CrapsStrategy

namespace Legal

/-- The whole dollars of a raw amount; none below a dollar. -/
def wholeDollars (raw : Binary64) : Int :=
  max 0 raw.saturate

/-- The least multiple of a step from an amount on. -/
def roundUp (amount step : Int) : Int :=
  if step ≤ 1 then amount
  else if amount % step = 0 then amount
  else min Binary64.maxInt (amount + (step - amount % step))

/-- The greatest multiple of a step up to an amount. -/
def roundDown (amount step : Int) : Int :=
  if step ≤ 1 then amount else amount - amount % step

/-- The step of a place bet on a number, or of a flat bet. -/
def betStep (table : TableRules) (number : Option Nat) : Int :=
  if table.bubble then 1
  else match number with
    | some 6 | some 8 => 6
    | some 4 | some 5 | some 9 | some 10 => 5
    | _ => max table.level 1

/-- The legal amount of a place bet on a number, or of a flat bet. -/
def amount (number : Option Nat) (raw : Binary64) (table : TableRules) : Int :=
  let whole := wholeDollars raw
  if whole = 0 then 0 else roundUp (max whole table.level) (betStep table number)

/-- The legal amount of a bet by its key. -/
def bet (key : String) (raw : Binary64) (table : TableRules) : Int :=
  amount (BetKey.placeNumber? key) raw table

/-- A product that ends at the greatest 64-bit integer. -/
def boundedMul (a b : Int) : Int :=
  min Binary64.maxInt (a * b)

/-- The most that odds on a point may win or take. -/
def oddsCap (policy : OddsPolicy) (point : Nat) (base : Int) : Int :=
  boundedMul (policy.multiple point) (max base 0)

/-- The step of odds behind the pass line. -/
def passStep (table : TableRules) (point : Nat) : Int :=
  if table.bubble then 1
  else match point with
    | 5 | 9 => 2
    | 6 | 8 => 5
    | _ => 1

/-- The legal odds behind a pass line bet of `base`. -/
def passOdds (point : Nat) (base : Int) (raw : Binary64) (table : TableRules) : Int :=
  roundDown (min (wholeDollars raw) (oddsCap table.odds point base)) (passStep table point)

/-- The amount that wins a cap when laid on a point, and the step of
such amounts. -/
def layCap? (point : Nat) (winCap : Int) : Option (Int × Int) :=
  match point with
  | 4 | 10 => some (boundedMul winCap 2, 2)
  | 5 | 9 => some (boundedMul winCap 3 / 2, 3)
  | 6 | 8 => some (boundedMul winCap 6 / 5, 6)
  | _ => none

/-- The legal odds behind a don't pass bet of `base`. -/
def layOdds (point : Nat) (base : Int) (raw : Binary64) (table : TableRules) : Int :=
  match layCap? point (oddsCap table.odds point base) with
  | some (cap, step) =>
    roundDown (min (wholeDollars raw) cap) (if table.bubble then 1 else step)
  | none => 0

end Legal

end CrapsStrategy
