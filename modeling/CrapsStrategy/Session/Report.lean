import CrapsStrategy.Session.Ledger

/-!
# `CrapsStrategy.Session.Report`: sessions as documents

Events, trace records and the books of a session are written as
documents. How an amount is written is up to the caller: `number`
gives the document of a double.
-/

set_option autoImplicit false

namespace CrapsStrategy

open Json (nullable optionalField)

/-- The document of a count. -/
def countJson (n : Nat) : Json :=
  .int n

/-- The document of counts by key. -/
def countsJson (counts : KeyMap Nat) : Json :=
  .object (counts.mapValues countJson).entries

/-- The document of two dice. -/
def diceJson : Nat × Nat → Json
  | (a, b) => .array [countJson a, countJson b]

def Counters.toJson (c : Counters) : Json :=
  .ofFields [("points_established", countJson c.pointsEstablished),
    ("points_made", countJson c.pointsMade), ("seven_outs", countJson c.sevenOuts),
    ("pso_count", countJson c.pointSevenOuts)]

def Resolution.toJson (number : Binary64 → Json) (r : Resolution) : Json :=
  .ofFields ([("bet_type", .text r.bet), ("result", .text r.result)] ++
    optionalField "payout" number r.payout)

def Event.toJson (number : Binary64 → Json) (e : Event) : Json :=
  .ofFields ([("type", .text e.kind.name), ("total", nullable countJson e.total),
    ("point", nullable countJson e.point), ("on_comeout", .bool e.onComeout),
    ("roll_index", countJson e.rollIndex), ("hand_id", countJson e.handId),
    ("roll_in_hand", countJson e.rollInHand),
    ("rolls_since_point", countJson e.rollsSincePoint), ("counters", e.counters.toJson)] ++
    optionalField "dice" diceJson e.dice ++
    optionalField "resolution" (Resolution.toJson number) e.resolution)

def TraceRecord.toJson (r : TraceRecord) : Json :=
  .ofFields ([("rule_id", .text r.ruleId), ("event", .text r.event.name),
    ("when", .text r.guardText), ("verdict", .text r.verdict.name),
    ("roll_index", countJson r.rollIndex)] ++ optionalField "detail" .text r.verdict.detail?)

def BetTally.toJson (number : Binary64 → Json) (t : BetTally) : Json :=
  .ofFields [("sets", countJson t.sets), ("presses", countJson t.presses),
    ("reduces", countJson t.reduces), ("clears", countJson t.clears),
    ("volume", number t.volume)]

def Ledger.toJson (number : Binary64 → Json) (l : Ledger) : Json :=
  .ofFields [("passes", countJson l.passes), ("rolls", countJson l.rolls),
    ("hands", countJson l.hands), ("events", countsJson l.events),
    ("rules_fired", countsJson l.rulesFired),
    ("template_actions", countJson l.templateActions),
    ("rule_actions", countJson l.ruleActions),
    ("mode_switches", .array (l.modeSwitches.map .text)), ("setvars", countJson l.setvars),
    ("points_seen", countsJson l.points),
    ("bets", .object (l.bets.mapValues (BetTally.toJson number)).entries),
    ("final_mode", .text l.mode), ("final_bankroll", number l.bankroll)]

end CrapsStrategy
