import CrapsStrategy.Event.Basic
import CrapsStrategy.Scope
import CrapsStrategy.Text.Integer

/-!
# `CrapsStrategy.Snapshot`: the table as expressions see it

A snapshot is the state of the table and the session for one event.
Its names are dotted paths: the first segment is a user variable or
else a field, and the further ones go into maps by key and into lists
by place. `bets` before one segment asks for a bet, where a bare
number means the place bet on it.

`merged` is the same namespace as one flat map. It has the fields that
are listed by name.
-/

set_option autoImplicit false

namespace CrapsStrategy

/-- Bet amounts in whole dollars by bet key. -/
abbrev Layout := KeyMap Int

/-- The state of table and session for one event. -/
structure Snapshot where
  event : EventKind
  bankroll : Binary64
  point : Option Nat
  onComeout : Bool
  handId : Nat
  rollInHand : Nat
  rollIndex : Nat
  rollsSincePoint : Nat
  lastRoll : Option Nat
  dice : Option (Nat × Nat)
  mode : String
  bubble : Bool
  tableLevel : Int
  counters : Counters
  /-- The bet that the event settled, and how. -/
  resolvedBet : Option String
  resolvedResult : Option String
  bets : Layout
  vars : Variables

namespace Snapshot

/-- The fields of the flat namespace. -/
def fieldNames : List String :=
  ["event", "bankroll", "point", "point_on", "on_comeout", "hand_id", "roll_in_hand",
    "roll_index", "rolls_since_point", "roll", "total", "last_roll_total", "dice", "mode",
    "bubble", "table_level", "points_established", "points_made", "seven_outs", "pso_count",
    "bet_type", "result"]

/-- Two dice as a value. -/
def diceValue : Nat × Nat → Value
  | (a, b) => .list [.ofNat a, .ofNat b]

/-- The value of a field; none for what is no field. -/
def field? (s : Snapshot) (name : String) : Option Value :=
  match name with
  | "event" | "event_type" => some (.text s.event.name)
  | "bankroll" => some (.float s.bankroll)
  | "point" => some (.ofOption .ofNat s.point)
  | "point_on" => some (.bool s.point.isSome)
  | "on_comeout" | "comeout" => some (.bool s.onComeout)
  | "hand_id" => some (.ofNat s.handId)
  | "roll_in_hand" => some (.ofNat s.rollInHand)
  | "roll_index" => some (.ofNat s.rollIndex)
  | "rolls_since_point" => some (.ofNat s.rollsSincePoint)
  | "roll" | "total" | "last_roll_total" => some (.ofOption .ofNat s.lastRoll)
  | "dice" => some (.ofOption diceValue s.dice)
  | "mode" => some (.text s.mode)
  | "bubble" => some (.bool s.bubble)
  | "table_level" => some (.ofInt s.tableLevel)
  | "points_established" => some (.ofNat s.counters.pointsEstablished)
  | "points_made" => some (.ofNat s.counters.pointsMade)
  | "seven_outs" => some (.ofNat s.counters.sevenOuts)
  | "pso_count" => some (.ofNat s.counters.pointSevenOuts)
  | "bet_type" => some (.ofOption .text s.resolvedBet)
  | "result" => some (.ofOption .text s.resolvedResult)
  | "bets" => some (.map (s.bets.mapValues .ofInt).entries)
  | "vars" => some (.ofVariables s.vars)
  | _ => none

/-- The value of a first segment. A user variable hides a field. -/
def root? (s : Snapshot) (name : String) : Option Value :=
  match s.vars.get? name with
  | some v => some v
  | none => s.field? name

/-- The amount of a bet by its key. A bare number means the place bet
on it. -/
def bet? (s : Snapshot) (key : String) : Option Int :=
  match s.bets.get? key with
  | some amount => some amount
  | none =>
    if key.toList.all Text.isDigit then s.bets.get? ("place_" ++ key) else none

/-- The greatest place in a list that a segment can name. -/
def maxPlace : Nat := 18446744073709551615

/-- One segment into a value. -/
def descend? (v : Value) (segment : String) : Option Value :=
  match v with
  | .map entries => entries.lookup segment
  | .list items => (Text.natUpTo? maxPlace segment).bind fun place => items[place]?
  | _ => none

/-- The value of a path in segments. -/
def path? (s : Snapshot) (first : String) (others : List String) : Option Value :=
  match others with
  | [key] =>
    if first = "bets" ∧ s.vars.contains "bets" = false then (s.bet? key).map .ofInt
    else (s.root? first).bind fun v => descend? v key
  | others => (s.root? first).bind fun v => others.foldlM descend? v

/-- The segments of a dotted path. -/
def segments (path : String) : String × List String :=
  match (path.toList.splitOn '.').map String.ofList with
  | first :: others => (first, others)
  | [] => ("", [])

/-- The value of a dotted path. -/
def lookup (s : Snapshot) (path : String) : Except Fault Value :=
  let (first, others) := segments path
  match s.path? first others with
  | some v => .ok v
  | none => .error (if others.isEmpty then .unknownVariable path else .unknownPath path)

/-- A snapshot as a scope. -/
def scope (s : Snapshot) : Scope :=
  s.lookup

/-- The fields under the user variables, as one flat map. -/
def merged (s : Snapshot) : Variables :=
  (KeyMap.ofList (fieldNames.filterMap fun name =>
    (s.field? name).map fun v => (name, v))).override s.vars

end Snapshot

end CrapsStrategy
