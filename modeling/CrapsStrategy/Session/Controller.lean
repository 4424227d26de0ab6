import CrapsStrategy.Event.Tracker
import CrapsStrategy.Rule.Engine
import CrapsStrategy.Rule.Run
import CrapsStrategy.Session.Paper
import CrapsStrategy.Strategy.Load
import CrapsStrategy.Template.Plan

/-!
# `CrapsStrategy.Session.Controller`: one pass per event

A controller runs a strategy over a betting table. Every event gets
one pass: a snapshot is taken, the rules are judged, the steps of
those that fire are run in order, and what they ask for is applied to
the table. A switched mode counts from the next step on.

The envelopes of a pass are the mode switches first, then the changes
that the template of the now active mode asks for, then everything
else. The template has its say when a point is established or when a
mode was switched.
-/

set_option autoImplicit false

namespace CrapsStrategy

/-- Why a strategy cannot be run. -/
inductive StartFault where
  | noModes
  | malformed (rule : MalformedRule)
deriving DecidableEq

def StartFault.message : StartFault → String
  | noModes => LoadFault.message (.invalid [.noModes])
  | malformed rule => rule.message

/-- A roll that cannot happen. -/
structure InvalidRoll where
  total : Nat
deriving DecidableEq, Repr

def InvalidRoll.message (fault : InvalidRoll) : String :=
  "Invalid roll total " ++ toString fault.total ++ " (expected 2..=12)"

/-- One handled event and what it led to. -/
structure Pass where
  seq : Nat
  event : Event
  snapshot : Snapshot
  actions : List Envelope

/-- A strategy at work on a betting table. -/
structure Controller (τ : Type) where
  templates : KeyMap Template
  rules : TableRules
  tracker : Tracker
  engine : RuleEngine
  verbs : Verbs
  store : Store
  table : τ
  /-- The number of passes so far. -/
  seq : Nat

namespace Controller

variable {τ : Type}

/-- A controller before its first pass. -/
def start (strategy : Strategy) (table : τ) : Except StartFault (Controller τ) :=
  if strategy.modes.entries.isEmpty then .error .noModes
  else
    match RuleEngine.compile strategy.rules with
    | .error rule => .error (.malformed rule)
    | .ok engine =>
      .ok {
        templates := strategy.modes
        rules := strategy.table.rules
        tracker := .fresh
        engine
        verbs := .standard
        store := .start strategy.vars (strategy.modes.mapValues fun _ => ())
        table
        seq := 0 }

def withTrace (c : Controller τ) (traced : Bool) : Controller τ :=
  { c with engine := c.engine.withTrace traced }

def withVerbs (c : Controller τ) (verbs : Verbs) : Controller τ :=
  { c with verbs }

/-- The active mode. -/
def mode (c : Controller τ) : String :=
  c.store.mode

/-- The snapshot of an event. On the come-out there is no point, also
when the event is about one. -/
def snapshot [BettingTable τ] (c : Controller τ) (event : Event) : Snapshot :=
  { event := event.kind
    bankroll := BettingTable.bankroll c.table
    point := if event.onComeout then none else event.point
    onComeout := event.onComeout
    handId := event.handId
    rollInHand := event.rollInHand
    rollIndex := event.rollIndex
    rollsSincePoint := event.rollsSincePoint
    lastRoll := event.total
    dice := event.dice
    mode := c.store.mode
    bubble := c.rules.bubble
    tableLevel := c.rules.level
    counters := event.counters
    resolvedBet := event.resolution.map Resolution.bet
    resolvedResult := event.resolution.map Resolution.result
    bets := BettingTable.bets c.table
    vars := c.store.vars }

/-! ## The steps of fired rules -/

/-- What the steps of a pass have led to so far. -/
structure Progress where
  store : Store
  engine : RuleEngine
  switches : List Envelope
  others : List Envelope
  modeSwitched : Bool

namespace Progress

/-- One envelope of a step. A switch takes effect at once. -/
def take (p : Progress) (e : Envelope) : Progress :=
  if e.action = .switchMode then
    { p with
      store := p.store.switchMode e.notes
      switches := p.switches ++ [e]
      modeSwitched := p.modeSwitched || p.store.changesMode e.notes }
  else { p with others := p.others ++ [e] }

/-- One step of a fired rule. -/
def runStep (verbs : Verbs) (snapshot : Snapshot) (ruleId : String) (p : Progress)
    (step : Step) : Progress :=
  let context : StepContext := { verbs, ruleId, snapshot }
  let (store, result) := context.run p.store step
  let p := { p with store }
  match result with
  | .ok envelopes => envelopes.foldl take p
  | .error fault => { p with engine := p.engine.recordDropped ruleId snapshot fault.message }

/-- All steps of a fired rule. -/
def runRule (verbs : Verbs) (snapshot : Snapshot) (p : Progress) (rule : Rule) : Progress :=
  rule.steps.foldl (runStep verbs snapshot rule.id) p

end Progress

/-- The rules at some positions. -/
def rulesAt (rules : List Rule) (positions : List Nat) : List Rule :=
  positions.filterMap fun position => rules[position]?

/-- The changes that the template of the active mode asks for. -/
def templateActions (c : Controller τ) (store : Store) (snapshot : Snapshot) : List Envelope :=
  match c.templates.get? store.mode with
  | none => []
  | some template =>
    (Plan.make c.rules store.mode template
      { snapshot with mode := store.mode, vars := store.vars }).actions

/-! ## Passes -/

/-- Handles an event in one pass. -/
def handle [BettingTable τ] (c : Controller τ) (event : Event) : Controller τ × Pass :=
  let seq := c.seq + 1
  let snapshot := c.snapshot event
  let (engine, fired) := c.engine.tick.evaluate snapshot
  let p := (rulesAt engine.rules fired).foldl (Progress.runRule c.verbs snapshot)
    { store := c.store, engine, switches := [], others := [], modeSwitched := false }
  -- The template sees the bets from before the pass, under the mode and
  -- the variables that the steps have left.
  let template :=
    if event.kind = .pointEstablished ∨ p.modeSwitched = true then
      c.templateActions p.store snapshot
    else []
  let actions := (p.switches ++ template ++ p.others).map fun e => e.withSeq seq
  let table := if actions.isEmpty then c.table else (BettingTable.applyAll c.table actions).1
  ({ c with engine := p.engine, store := p.store, table, seq },
    { seq, event, snapshot, actions })

/-- Handles events in order. -/
def handleAll [BettingTable τ] (c : Controller τ) : List Event → Controller τ × List Pass
  | [] => (c, [])
  | event :: events =>
    let (c, pass) := c.handle event
    let (c, passes) := c.handleAll events
    (c, pass :: passes)

/-- Handles the events of a roll. A roll that cannot happen changes
nothing. -/
def roll [BettingTable τ] (c : Controller τ) (total : Nat) (dice : Option (Nat × Nat)) :
    Except InvalidRoll (Controller τ × List Pass) :=
  match c.tracker.roll? total dice with
  | none => .error { total }
  | some (tracker, events) => .ok ({ c with tracker }.handleAll events)

/-- Handles the settling of a bet. -/
def resolve [BettingTable τ] (c : Controller τ) (bet result : String)
    (payout : Option Binary64) : Controller τ × Pass :=
  c.handle (c.tracker.resolve bet result payout)

/-- Starts the table over. Rules, variables and mode carry on. -/
def resetTable (c : Controller τ) : Controller τ :=
  { c with tracker := .fresh }

end Controller

end CrapsStrategy
