import CrapsStrategy.Table.BetKey
import CrapsStrategy.Value.Display
import CrapsStrategy.Value.Document

/-!
# `CrapsStrategy.Envelope`: what the engine asks for

An envelope is one request and its reason: a bet to set, press,
reduce or clear, a mode to switch to, or a variable that was set. It
has an amount exactly for set, press and reduce, a bet exactly for
those and clear, and a variable with its value exactly for setvar. A
mode switch names its mode in the notes.
-/

set_option autoImplicit false

namespace CrapsStrategy

/-- Who asked. -/
inductive Source where
  | template | rule
deriving DecidableEq, Repr

def Source.name : Source → String
  | template => "template"
  | rule => "rule"

/-- What is asked for. -/
inductive ActionKind where
  | set | clear | press | reduce | switchMode | setvar
deriving DecidableEq, Repr

namespace ActionKind

def all : List ActionKind :=
  [set, clear, press, reduce, switchMode, setvar]

def name : ActionKind → String
  | set => "set"
  | clear => "clear"
  | press => "press"
  | reduce => "reduce"
  | switchMode => "switch_mode"
  | setvar => "setvar"

def ofName? (text : String) : Option ActionKind :=
  all.find? fun kind => kind.name == text

/-- Whether money on the layout changes. -/
def mutatesBets : ActionKind → Bool
  | set | clear | press | reduce => true
  | switchMode | setvar => false

end ActionKind

/-- The requests that put an amount on a bet. -/
inductive Wager where
  | set | press | reduce
deriving DecidableEq, Repr

def Wager.kind : Wager → ActionKind
  | set => .set
  | press => .press
  | reduce => .reduce

/-- One request and its reason. -/
structure Envelope where
  source : Source
  id : String
  action : ActionKind
  bet : Option String
  amount : Option Binary64
  notes : String
  /-- The pass that made it. -/
  seq : Option Nat
  var : Option String
  value : Option Value
  /-- Whether odds stay up while the puck is off. -/
  working : Option Bool

namespace Envelope

/-- An envelope with nothing but its origin and its action. -/
def bare (source : Source) (id : String) (action : ActionKind) : Envelope :=
  { source, id, action, bet := none, amount := none, notes := "", seq := none, var := none,
    value := none, working := none }

/-- Puts an amount on a bet. -/
def wager (source : Source) (id : String) (wager : Wager) (bet : String) (amount : Binary64) :
    Envelope :=
  { bare source id wager.kind with bet := some bet, amount := some amount }

/-- Takes a bet down. -/
def clear (source : Source) (id bet : String) : Envelope :=
  { bare source id .clear with bet := some bet }

/-- Switches the mode. -/
def switchMode (source : Source) (id mode : String) : Envelope :=
  { bare source id .switchMode with notes := mode }

/-- Reports a variable that was set. -/
def setvar (source : Source) (id var : String) (value : Value) : Envelope :=
  { bare source id .setvar with
    notes := var ++ " = " ++ value.display, var := some var, value := some value }

def withNotes (e : Envelope) (notes : String) : Envelope :=
  { e with notes }

def withSeq (e : Envelope) (seq : Nat) : Envelope :=
  { e with seq := some seq }

def withWorking (e : Envelope) (working : Bool) : Envelope :=
  { e with working := some working }

/-- An envelope on one line; the amount in whole dollars. -/
def display (e : Envelope) : String :=
  "[" ++ e.id ++ "] " ++ e.action.name ++
    (match e.bet with
      | some bet => " " ++ bet
      | none => "") ++
    (match e.amount with
      | some amount => " $" ++ amount.wholeText
      | none => "") ++
    (if e.notes.isEmpty then "" else " (" ++ e.notes ++ ")")

/-! ## Documents -/

/-- The document of an envelope. -/
def toJson (e : Envelope) : Json :=
  .ofFields ([("source", .text e.source.name), ("id", .text e.id),
    ("action", .text e.action.name), ("bet_type", Json.nullable .text e.bet),
    ("amount", Json.nullable (fun x => (Value.float x).toJson) e.amount), ("notes", .text e.notes)] ++
    Json.optionalField "seq" (fun n : Nat => .int n) e.seq ++
    Json.optionalField "var" .text e.var ++
    Json.optionalField "value" Value.toJson e.value ++
    Json.optionalField "working" .bool e.working)

/-- The source of a name. -/
def source? (text : String) : Option Source :=
  match text with
  | "template" => some .template
  | "rule" => some .rule
  | _ => none

/-- Reads the document of an envelope. -/
def ofJson? (j : Json) : Option Envelope := do
  let source ← (← (← j.field? "source").text?) |> source?
  let id ← (← j.field? "id").text?
  let action ← ActionKind.ofName? (← (← j.field? "action").text?)
  let bet ← Json.optional? Json.text? (j.field? "bet_type")
  let amount ← Json.optional? Json.number? (j.field? "amount")
  let notes ← (← j.field? "notes").text?
  let seq ← Json.optional? (Json.natUpTo? 18446744073709551615) (j.field? "seq")
  let var ← Json.optional? Json.text? (j.field? "var")
  let value ← Json.optional? (some ∘ Value.ofJson) (j.field? "value")
  let working ← Json.optional? Json.bool? (j.field? "working")
  return { source, id, action, bet, amount, notes, seq, var, value, working }

end Envelope

end CrapsStrategy
