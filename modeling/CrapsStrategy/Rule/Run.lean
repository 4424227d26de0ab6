import CrapsStrategy.Rule.Step
import CrapsStrategy.Rule.Store
import CrapsStrategy.Rule.Verbs
import CrapsStrategy.Snapshot

/-!
# `CrapsStrategy.Rule.Run`: running steps

A step runs at the snapshot of its pass, over the live variables.
Statements and `setvar` write into the store; all other verbs only
ask for something. A step that faults asks for nothing; what its
statements assigned before the fault stays.

While a bet is being settled, no verb may change bets.
-/

set_option autoImplicit false

namespace CrapsStrategy

/-- The arguments that a verb may lack. -/
inductive Argument where
  | bet | amount | mode | var | value
deriving DecidableEq, Repr

def Argument.name : Argument → String
  | bet => "bet_type"
  | amount => "amount"
  | mode => "mode"
  | var => "var"
  | value => "value"

/-- Why a step asks for nothing. -/
inductive StepFault where
  | unknownVerb (verb : String)
  | missing (action : ActionKind) (argument : Argument)
  | badAmount (action : ActionKind) (bet : String) (amount : StepAmount)
  | unknownMode (mode : String)
  /-- A verb that changes bets, while a bet is being settled. -/
  | untimely (action : ActionKind)
  | expression (fault : Fault)
deriving DecidableEq

def StepFault.message : StepFault → String
  | unknownVerb verb => "unknown verb '" ++ verb ++ "'"
  | missing action argument => action.name ++ ": missing " ++ argument.name
  | badAmount action bet amount =>
    action.name ++ " " ++ bet ++ ": amount " ++ amount.display ++ " is not a positive number"
  | unknownMode mode => "unknown mode '" ++ mode ++ "'"
  | untimely action =>
    "Timing violation: " ++ action.name ++ " not allowed during " ++
      EventKind.betResolved.name
  | expression fault => fault.message

/-- What a step is run with. -/
structure StepContext where
  verbs : Verbs
  ruleId : String
  snapshot : Snapshot

namespace StepContext

/-- The scope of a step: the live variables over the snapshot. -/
def scope (c : StepContext) (store : Store) : Scope :=
  .overlay store.vars c.snapshot.scope

/-- A result of an expression in a step. -/
def evaluated {α : Type} : Except Fault α → Except StepFault α
  | .ok a => .ok a
  | .error fault => .error (.expression fault)

/-- An argument that has to be there. -/
def need {α : Type} (action : ActionKind) (argument : Argument) : Option α → Except StepFault α
  | some a => .ok a
  | none => .error (.missing action argument)

/-- The number of an amount; what is neither a number nor a text
counts as NaN. -/
def amountNumber (c : StepContext) (store : Store) : StepAmount → Except StepFault Binary64
  | .literal x => .ok x
  | .formula text => evaluated (Formula.number text (c.scope store))
  | .invalid _ => .ok .nan

/-- The amount of a wager, which has to be finite and positive. -/
def positiveAmount (c : StepContext) (store : Store) (action : ActionKind) (bet : String)
    (amount : StepAmount) : Except StepFault Binary64 := do
  let x ← c.amountNumber store amount
  if x.isFinite && Binary64.less 0 x then return x
  else .error (.badAmount action bet amount)

/-- An envelope with the notes of its step, if the step has some. -/
def annotated (call : VerbCall) (e : Envelope) : Envelope :=
  match call.notes with
  | some notes => e.withNotes notes
  | none => e

/-- Puts an amount on a bet. -/
def wager (c : StepContext) (store : Store) (call : VerbCall) (wager : Wager) :
    Except StepFault Envelope := do
  let bet ← need wager.kind .bet call.bet
  let amount ← need wager.kind .amount call.amount
  let x ← c.positiveAmount store wager.kind bet amount
  return annotated call (.wager .rule c.ruleId wager bet x)

/-- Takes a bet down. -/
def clear (c : StepContext) (call : VerbCall) : Except StepFault Envelope := do
  let bet ← need .clear .bet call.bet
  return annotated call (.clear .rule c.ruleId bet)

/-- Asks for another mode, which the notes may name too. -/
def switchMode (c : StepContext) (store : Store) (call : VerbCall) :
    Except StepFault Envelope := do
  let mode := Text.trim (← need .switchMode .mode (call.mode.or call.notes))
  if store.hasMode mode then return .switchMode .rule c.ruleId mode
  else .error (.unknownMode mode)

/-- The value of a number that a step text spells. Whole numbers are
integers, as strategy variables are. -/
def literalValue (x : Binary64) : Value :=
  if x.isFinite && x.truncate.equal x && Binary64.less x.abs (.ofInt Binary64.maxInt) then
    .ofInt x.saturate
  else .float x

/-- The value that `setvar` stores. -/
def storedValue (c : StepContext) (store : Store) (call : VerbCall) :
    Except StepFault Value :=
  match call.value, call.amount with
  | some v, _ => .ok v
  | none, some (.literal x) => .ok (literalValue x)
  | none, some (.formula text) => evaluated (Formula.value text (c.scope store))
  | none, _ => .error (.missing .setvar .value)

/-- Stores a value in a variable. -/
def setvar (c : StepContext) (store : Store) (call : VerbCall) :
    Except StepFault (Store × Envelope) := do
  let var ← need .setvar .var call.var
  let v ← c.storedValue store call
  return (store.set var v, .setvar .rule c.ruleId var v)

/-- Runs a verb that stands for an action. -/
def act (c : StepContext) (store : Store) (call : VerbCall) (action : ActionKind) :
    Except StepFault (Store × Envelope) :=
  match action with
  | .set => do return (store, ← c.wager store call .set)
  | .press => do return (store, ← c.wager store call .press)
  | .reduce => do return (store, ← c.wager store call .reduce)
  | .clear => do return (store, ← c.clear call)
  | .switchMode => do return (store, ← c.switchMode store call)
  | .setvar => c.setvar store call

/-- Runs a verb. -/
def runCall (c : StepContext) (store : Store) (call : VerbCall) :
    Except StepFault (Store × Envelope) :=
  match c.verbs.resolve? call.verb with
  | none => .error (.unknownVerb call.verb)
  | some action =>
    if action.mutatesBets && c.snapshot.event == .betResolved then .error (.untimely action)
    else c.act store call action

/-- Runs a step: the store after it, and what it asks for. -/
def run (c : StepContext) (store : Store) : Step → Store × Except StepFault (List Envelope)
  | .statements _ script =>
    let (run, fault) := script.run c.snapshot.scope store.vars
    -- What was assigned before a fault stays, though nothing tells of it.
    let store := { store with vars := run.vars }
    match fault with
    | some fault => (store, .error (.expression fault))
    | none =>
      (store, .ok (run.assigned.map fun (var, v) => .setvar .rule c.ruleId var v))
  | .call call =>
    match c.runCall store call with
    | .ok (store, e) => (store, .ok [e])
    | .error fault => (store, .error fault)

end StepContext

end CrapsStrategy
