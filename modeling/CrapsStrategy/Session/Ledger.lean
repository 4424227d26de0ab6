import CrapsStrategy.Session.Controller

/-!
# `CrapsStrategy.Session.Ledger`: the books of a session

A ledger is kept pass by pass. It counts events, rules that fired,
and envelopes by who asked and by bet, and it notes the highest roll
and hand, the last mode and the bankroll that the last pass began
with.
-/

set_option autoImplicit false

namespace CrapsStrategy

/-- The envelopes on one bet. -/
structure BetTally where
  sets : Nat
  presses : Nat
  reduces : Nat
  clears : Nat
  /-- The sum of their amounts. -/
  volume : Binary64

namespace BetTally

def empty : BetTally :=
  { sets := 0, presses := 0, reduces := 0, clears := 0, volume := 0 }

/-- A tally with one more envelope. -/
def add (tally : BetTally) (action : ActionKind) (amount : Option Binary64) : BetTally :=
  let tally := { tally with volume := tally.volume.add (amount.getD 0) }
  match action with
  | .set => { tally with sets := tally.sets + 1 }
  | .press => { tally with presses := tally.presses + 1 }
  | .reduce => { tally with reduces := tally.reduces + 1 }
  | _ => { tally with clears := tally.clears + 1 }

end BetTally

/-- The books of a session. -/
structure Ledger where
  passes : Nat
  /-- The highest roll and hand of any event. -/
  rolls : Nat
  hands : Nat
  events : KeyMap Nat
  /-- For each rule the passes with an envelope of it. -/
  rulesFired : KeyMap Nat
  templateActions : Nat
  ruleActions : Nat
  modeSwitches : List String
  setvars : Nat
  /-- For each point how often it was established. -/
  points : KeyMap Nat
  bets : KeyMap BetTally
  mode : String
  bankroll : Binary64

namespace Ledger

def empty : Ledger :=
  { passes := 0, rolls := 0, hands := 0, events := .empty, rulesFired := .empty,
    templateActions := 0, ruleActions := 0, modeSwitches := [], setvars := 0, points := .empty,
    bets := .empty, mode := "", bankroll := 0 }

/-- Counts with one more under a key. -/
def increment (counts : KeyMap Nat) (key : String) : KeyMap Nat :=
  counts.alter key fun n => n.getD 0 + 1

/-- The count under a key. -/
def count (counts : KeyMap Nat) (key : String) : Nat :=
  (counts.get? key).getD 0

/-- The ids of the rules among the envelopes of a pass, each once. -/
def firedIds (actions : List Envelope) : KeySet :=
  .ofList ((actions.filter fun e => e.source == .rule).map Envelope.id)

/-- The books with who asked. -/
def countSource (ledger : Ledger) : Source → Ledger
  | .template => { ledger with templateActions := ledger.templateActions + 1 }
  | .rule => { ledger with ruleActions := ledger.ruleActions + 1 }

/-- The books with what was asked for. -/
def countAction (ledger : Ledger) (e : Envelope) : Ledger :=
  match e.action, e.bet with
  | .switchMode, _ => { ledger with modeSwitches := ledger.modeSwitches ++ [e.notes] }
  | .setvar, _ => { ledger with setvars := ledger.setvars + 1 }
  | action, some bet =>
    { ledger with
      bets := ledger.bets.alter bet fun tally => (tally.getD .empty).add action e.amount }
  | _, none => ledger

/-- The books with one more envelope. -/
def addAction (ledger : Ledger) (e : Envelope) : Ledger :=
  (ledger.countSource e.source).countAction e

/-- The mode after a pass: that of its last switch. -/
def modeAfter (snapshot : Snapshot) (actions : List Envelope) : String :=
  match (actions.filter fun e => e.action == .switchMode).getLast? with
  | some e => e.notes
  | none => snapshot.mode

/-- The points with that of an event that established one. -/
def addPoint (points : KeyMap Nat) (event : Event) : KeyMap Nat :=
  match event.kind, event.point with
  | .pointEstablished, some point => increment points (toString point)
  | _, _ => points

/-- The books after a pass. -/
def add (ledger : Ledger) (event : Event) (snapshot : Snapshot) (actions : List Envelope) :
    Ledger :=
  let ledger := actions.foldl addAction ledger
  { ledger with
    passes := ledger.passes + 1
    rolls := max ledger.rolls event.rollIndex
    hands := max ledger.hands event.handId
    events := increment ledger.events event.kind.name
    points := addPoint ledger.points event
    rulesFired := (firedIds actions).keys.foldl increment ledger.rulesFired
    mode := modeAfter snapshot actions
    -- From before the actions, though the mode is from after them.
    bankroll := snapshot.bankroll }

/-- The books after a pass of a controller. -/
def addPass (ledger : Ledger) (pass : Pass) : Ledger :=
  ledger.add pass.event pass.snapshot pass.actions

/-- How often an event of a kind was handled. -/
def eventCount (ledger : Ledger) (kind : EventKind) : Nat :=
  count ledger.events kind.name

/-- In how many passes a rule asked for something. -/
def firedCount (ledger : Ledger) (ruleId : String) : Nat :=
  count ledger.rulesFired ruleId

end Ledger

end CrapsStrategy
