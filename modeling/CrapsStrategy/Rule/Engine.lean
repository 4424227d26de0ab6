import CrapsStrategy.Rule.Basic
import CrapsStrategy.Snapshot

/-!
# `CrapsStrategy.Rule.Engine`: which rules fire

Each rule has a state of its own: how many passes it still rests, the
hand or session it is locked for, whether it is disabled, and the
roll of its last fire. `RuleEngine.tick` starts a pass, and
`RuleEngine.evaluate` judges every rule at the snapshot of the pass.

A rule fires when it is not disabled, its trigger is the event, it is
not locked for the present hand or session, it does not rest, and its
guard holds. A lock for an earlier hand falls away when the rule is
next triggered. With tracing on, every judgement of a triggered rule
leaves a record.
-/

set_option autoImplicit false

namespace CrapsStrategy

/-- What a fired rule is locked for. -/
inductive ScopeLock where
  | hand (handId : Nat)
  | session
deriving DecidableEq, Repr

/-- The lock that a scope asks for. -/
def RuleScope.lock? (scope : RuleScope) (handId : Nat) : Option ScopeLock :=
  match scope with
  | roll => none
  | hand => some (.hand handId)
  | session => some .session

/-- The state of a rule. -/
structure RuleState where
  /-- The passes that the rule still rests. -/
  resting : Nat
  lock : Option ScopeLock
  disabled : Bool
  lastFired : Option Nat
deriving DecidableEq, Repr

namespace RuleState

/-- The state of a rule that has never fired. -/
def fresh : RuleState :=
  { resting := 0, lock := none, disabled := false, lastFired := none }

/-- The state one pass later. -/
def tick (state : RuleState) : RuleState :=
  { state with resting := state.resting - 1 }

/-- The state without a lock that is for something else. -/
def refresh (state : RuleState) (key : Option ScopeLock) : RuleState :=
  if key.isSome then { state with lock := none } else state

/-- The state of a rule that has just fired. The pass of the fire
counts as the first of its rest. The count has 32 bits, so at the
greatest cooldown it wraps to zero. -/
def fire (state : RuleState) (rule : Rule) (key : Option ScopeLock) (rollIndex : Nat) :
    RuleState :=
  { resting := if 0 < rule.cooldown then (rule.cooldown + 1) % 4294967296 else state.resting
    lock := key.or state.lock
    disabled := state.disabled || rule.once
    lastFired := some rollIndex }

end RuleState

/-- The judgement on a triggered rule, or the fate of its step. -/
inductive Verdict where
  | fired
  | guardFalse
  | guardFault (fault : Fault)
  | resting (passes : Nat)
  | scopeLocked
  /-- A step of a fired rule asked for nothing. -/
  | stepDropped (reason : String)
deriving DecidableEq

namespace Verdict

def name : Verdict → String
  | fired => "fired"
  | guardFalse => "guard_false"
  | guardFault _ => "guard_error"
  | resting _ => "cooldown"
  | scopeLocked => "scope_locked"
  | stepDropped _ => "step_dropped"

/-- What a record says beyond the verdict. -/
def detail? : Verdict → Option String
  | guardFault fault => some fault.message
  | resting passes => some (toString passes ++ " events remaining")
  | stepDropped reason => some reason
  | _ => none

end Verdict

/-- Judges a rule at a snapshot. A rule that is disabled or waits for
another event gets no verdict. -/
def Rule.judge (rule : Rule) (state : RuleState) (snapshot : Snapshot) :
    RuleState × Option Verdict :=
  if state.disabled || rule.trigger != some snapshot.event then (state, none)
  else
    let key := rule.scope.lock? snapshot.handId
    if key.isSome && state.lock == key then (state, some .scopeLocked)
    else
      -- The lock is given up here, whether or not the rule fires in the end.
      let state := state.refresh key
      if 0 < state.resting then (state, some (.resting state.resting))
      else
        match rule.guard with
        | none => (state.fire rule key snapshot.rollIndex, some .fired)
        | some guard =>
          match guard.test snapshot.scope with
          | .ok true => (state.fire rule key snapshot.rollIndex, some .fired)
          | .ok false => (state, some .guardFalse)
          | .error fault => (state, some (.guardFault fault))

/-- A rule with its state. -/
structure ArmedRule where
  rule : Rule
  state : RuleState

/-- A line of the trace. -/
structure TraceRecord where
  ruleId : String
  event : EventKind
  guardText : String
  verdict : Verdict
  rollIndex : Nat

/-- Rules with their states, and the trace if it is on. -/
structure RuleEngine where
  armed : List ArmedRule
  traced : Bool
  trace : List TraceRecord

namespace RuleEngine

/-- An engine before its first pass. -/
def ofRules (rules : List Rule) : RuleEngine :=
  { armed := rules.map fun rule => { rule, state := .fresh }, traced := false, trace := [] }

/-- The engine of rules as written. -/
def compile (rules : List RuleSection) : Except MalformedRule RuleEngine := do
  return ofRules (← Rule.compileAll rules)

def withTrace (engine : RuleEngine) (traced : Bool) : RuleEngine :=
  { engine with traced }

def rules (engine : RuleEngine) : List Rule :=
  engine.armed.map ArmedRule.rule

def states (engine : RuleEngine) : List RuleState :=
  engine.armed.map ArmedRule.state

/-- The engine with an empty trace. -/
def dropTrace (engine : RuleEngine) : RuleEngine :=
  { engine with trace := [] }

/-- Starts a pass. -/
def tick (engine : RuleEngine) : RuleEngine :=
  { engine with
    armed := engine.armed.map fun armed => { armed with state := armed.state.tick } }

/-- The guard text of an id, that of the first rule with it. -/
def guardTextOf (engine : RuleEngine) (ruleId : String) : String :=
  ((engine.rules.find? fun rule => rule.id == ruleId).map Rule.guardText).getD ""

/-- The record of a verdict. -/
def recordOf (engine : RuleEngine) (ruleId : String) (snapshot : Snapshot) (verdict : Verdict) :
    TraceRecord :=
  { ruleId, event := snapshot.event, guardText := engine.guardTextOf ruleId, verdict,
    rollIndex := snapshot.rollIndex }

/-- The engine with records added to its trace, if it is on. -/
def addRecords (engine : RuleEngine) (records : List TraceRecord) : RuleEngine :=
  if engine.traced then { engine with trace := engine.trace ++ records } else engine

/-- A rule after a judgement, and the verdict. -/
structure Judged where
  armed : ArmedRule
  verdict : Option Verdict

def Judged.hasFired (judged : Judged) : Bool :=
  judged.verdict == some .fired

/-- The judgements on all rules in order. -/
def judgeAll (engine : RuleEngine) (snapshot : Snapshot) : List Judged :=
  engine.armed.map fun armed =>
    let (state, verdict) := armed.rule.judge armed.state snapshot
    { armed := { armed with state }, verdict }

/-- Judges all rules: the engine after it, and the positions of those
that fire. -/
def evaluate (engine : RuleEngine) (snapshot : Snapshot) : RuleEngine × List Nat :=
  let judged := engine.judgeAll snapshot
  let records := judged.filterMap fun j =>
    j.verdict.map (engine.recordOf j.armed.rule.id snapshot)
  let fired := judged.zipIdx.filterMap fun (j, index) => if j.hasFired then some index else none
  ({ engine with armed := judged.map Judged.armed }.addRecords records, fired)

/-- Records a step that asked for nothing. -/
def recordDropped (engine : RuleEngine) (ruleId : String) (snapshot : Snapshot)
    (reason : String) : RuleEngine :=
  engine.addRecords [engine.recordOf ruleId snapshot (.stepDropped reason)]

end RuleEngine

end CrapsStrategy
