import CrapsStrategy.Event.Basic
import CrapsStrategy.Table.Point

/-!
# `CrapsStrategy.Event.Tracker`: rolls to events

A tracker follows one table. Each accepted roll gives one event,
behind a `comeout` marker when it is the first roll of a hand: the
first of all, or the first after a seven-out. A roll with a total
outside 2 to 12, or with dice that do not show the total, is refused
and changes nothing.

With the puck off a point number sets the point, and any other total
settles the line. With the puck on the point makes it, a seven loses
it, and any other total is a plain roll.
-/

set_option autoImplicit false

namespace CrapsStrategy

/-- The marker of the table: off before a point is set, on with it. -/
inductive Puck where
  | off
  | on (point : Nat)
deriving DecidableEq, Repr

def Puck.point? : Puck → Option Nat
  | off => none
  | on point => some point

/-- The state of a table and its history in counts. -/
structure Tracker where
  puck : Puck
  rollIndex : Nat
  handId : Nat
  rollInHand : Nat
  rollsSincePoint : Nat
  lastRoll : Option Nat
  dice : Option (Nat × Nat)
  counters : Counters
  /-- Whether the next roll starts a hand. -/
  comeoutPending : Bool
deriving DecidableEq

namespace Tracker

/-- A table before its first roll. -/
def fresh : Tracker :=
  { puck := .off, rollIndex := 0, handId := 0, rollInHand := 0, rollsSincePoint := 0,
    lastRoll := none, dice := none, counters := .zero, comeoutPending := true }

instance : Inhabited Tracker := ⟨fresh⟩

def onComeout (t : Tracker) : Bool :=
  t.puck == .off

/-- An event at the state a table is in. Its dice are those of its
roll. -/
def event (t : Tracker) (kind : EventKind) (total point : Option Nat)
    (resolution : Option Resolution) : Event :=
  { kind, total, dice := if total.isSome then t.dice else none, point,
    onComeout := t.onComeout, rollIndex := t.rollIndex, handId := t.handId,
    rollInHand := t.rollInHand, rollsSincePoint := t.rollsSincePoint,
    counters := t.counters, resolution }

/-- Whether a pair of dice shows a total. -/
def showsTotal (total : Nat) : Nat × Nat → Bool
  | (a, b) => decide (1 ≤ a ∧ a ≤ 6 ∧ 1 ≤ b ∧ b ≤ 6 ∧ a + b = total)

/-- Whether a roll can happen. -/
def accepts (total : Nat) (dice : Option (Nat × Nat)) : Bool :=
  decide (2 ≤ total ∧ total ≤ 12) && dice.all (showsTotal total)

/-- A table that counts the next roll, and has opened a hand if one
was pending. -/
def openHand (t : Tracker) : Tracker × List Event :=
  let t := { t with rollIndex := t.rollIndex + 1 }
  if t.comeoutPending then
    -- The marker counts the roll that it comes before, but has no total.
    let t := { t with comeoutPending := false, handId := t.handId + 1, rollInHand := 0 }
    (t, [t.event .comeout none none none])
  else (t, [])

/-- A table with the dice of a roll on it. -/
def throwDice (t : Tracker) (total : Nat) (dice : Option (Nat × Nat)) : Tracker :=
  { t with rollInHand := t.rollInHand + 1, lastRoll := some total, dice }

/-- How the line comes out on a total that sets no point. -/
def lineResult (total : Nat) : Resolution :=
  { bet := "pass_line", result := if total = 7 ∨ total = 11 then "win" else "loss",
    payout := none }

/-- A table after a thrown total, and the event of it. -/
def settle (t : Tracker) (total : Nat) : Tracker × Event :=
  match t.puck with
  | .off =>
    if isPoint total then
      let t := { t with
        puck := .on total, rollsSincePoint := 0,
        counters := { t.counters with
          pointsEstablished := t.counters.pointsEstablished + 1 } }
      (t, t.event .pointEstablished (some total) (some total) none)
    else
      (t, t.event .betResolved (some total) none (some (lineResult total)))
  | .on point =>
    if total = 7 then
      let pointSevenOuts :=
        if t.rollsSincePoint = 0 then t.counters.pointSevenOuts + 1
        else t.counters.pointSevenOuts
      let t := { t with
        puck := .off, rollsSincePoint := 0, comeoutPending := true,
        counters := { t.counters with pointSevenOuts, sevenOuts := t.counters.sevenOuts + 1 } }
      (t, t.event .sevenOut (some total) (some point) none)
    else if total = point then
      let t := { t with
        puck := .off, rollsSincePoint := 0,
        counters := { t.counters with pointsMade := t.counters.pointsMade + 1 } }
      (t, t.event .pointMade (some total) (some point) none)
    else
      let t := { t with rollsSincePoint := t.rollsSincePoint + 1 }
      (t, t.event .roll (some total) (some point) none)

/-- A table after a roll, and the events of it; none for a roll that
cannot happen. -/
def roll? (t : Tracker) (total : Nat) (dice : Option (Nat × Nat)) :
    Option (Tracker × List Event) :=
  if accepts total dice then
    let (t, opening) := t.openHand
    let (t, event) := (t.throwDice total dice).settle total
    some (t, opening ++ [event])
  else none

/-- The event of a bet that was settled elsewhere. -/
def resolve (t : Tracker) (bet result : String) (payout : Option Binary64) : Event :=
  t.event .betResolved t.lastRoll t.puck.point? (some { bet, result, payout })

end Tracker

end CrapsStrategy
