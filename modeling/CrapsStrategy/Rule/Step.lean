import CrapsStrategy.Decimal.Reader
import CrapsStrategy.Formula
import CrapsStrategy.Strategy.Basic
import CrapsStrategy.Table.BetKey
import CrapsStrategy.Text.Words

/-!
# `CrapsStrategy.Rule.Step`: what a rule does

A step is a verb with its arguments, or a text of statements that
assign variables. A step text is statements when it compiles as a
script with an assignment, and otherwise a verb and its words.

Whether a verb exists, and what it needs, shows only when the step
runs.
-/

set_option autoImplicit false

namespace CrapsStrategy

/-- The amount of a step. -/
inductive StepAmount where
  | literal (x : Binary64)
  | formula (text : String)
  /-- Neither a number nor a text; kept as it is shown. -/
  | invalid (shown : String)
deriving DecidableEq

namespace StepAmount

/-- Reads an amount text: a number, or else a formula. -/
def ofText (text : String) : StepAmount :=
  let text := Text.trim text
  match Binary64.read? text with
  | some x => literal x
  | none => formula text

def ofValue : Value → StepAmount
  | .int i => literal (.ofInt i.toInt)
  | .float x => literal x
  | .text s => ofText s
  | v => invalid v.display

def display : StepAmount → String
  | literal x => x.text
  | formula text => text
  | invalid shown => shown

end StepAmount

/-- A verb with the arguments that a step supplies. -/
structure VerbCall where
  verb : String
  bet : Option String
  amount : Option StepAmount
  notes : Option String
  mode : Option String
  var : Option String
  value : Option Value

/-- A verb without arguments. -/
def VerbCall.bare (verb : String) : VerbCall :=
  { verb, bet := none, amount := none, notes := none, mode := none, var := none, value := none }

/-- A step of a rule. -/
inductive Step where
  | call (c : VerbCall)
  | statements (source : String) (script : Script)

namespace Step

/-- Words with single blanks between them. -/
def unwords (words : List String) : String :=
  String.intercalate " " words

/-- The amount that the words after the first spell. -/
def trailingAmount? (arguments : List String) : Option StepAmount :=
  match arguments with
  | _ :: first :: rest => some (.ofText (unwords (first :: rest)))
  | _ => none

/-- The verbs that name a mode with all their words. -/
def namesMode (verb : String) : Bool :=
  ["switch_mode", "switch_profile"].contains verb

/-- The call that words spell: a mode for the verbs that switch, a
variable and an amount for `setvar`, and a bet and an amount for all
others. -/
def ofWords (verb : String) (arguments : List String) : VerbCall :=
  if namesMode verb then
    { VerbCall.bare verb with
      mode := if arguments.isEmpty then none else some (unwords arguments) }
  else if verb = "setvar" then
    { VerbCall.bare verb with var := arguments.head?, amount := trailingAmount? arguments }
  else
    { VerbCall.bare verb with
      bet := arguments.head?.map BetKey.canonical, amount := trailingAmount? arguments }

/-- The script of a text with assignments. -/
def assignments? (text : String) : Option Script :=
  (Script.compile text).toOption.filter fun script => script.hasAssignments

/-- Reads a step text. A blank text is no step. -/
def read? (text : String) : Option Step :=
  let text := Text.trim text
  match Text.words text with
  | [] => none
  | verb :: arguments =>
    -- A text that assigns is no call, also when its first word is a verb.
    match assignments? text with
    | some script => some (statements text script)
    | none => some (call (ofWords (Text.lower verb) arguments))

/-- The step of named arguments. -/
def ofObject (step : StepObject) : Step :=
  call {
    verb := Text.lower (step.action.getD "")
    bet := step.bet.map BetKey.canonical
    amount := step.amount.map StepAmount.ofValue
    notes := step.notes, mode := step.mode, var := step.var, value := step.value }

/-- A step as it is written. -/
def ofText? : StepText → Option Step
  | .text source => read? source
  | .object step => some (ofObject step)

/-- The text of an argument; any value but nothing has one. -/
def argumentText? (arguments : KeyMap Value) (name : String) : Option String :=
  match arguments.get? name with
  | some (.text s) => some s
  | some .null => none
  | some v => some v.display
  | none => none

/-- The step of the short form. -/
def ofThen (step : ThenStep) : Step :=
  let text := argumentText? step.arguments
  call {
    verb := Text.lower (Text.trim step.verb)
    bet := ((text "bet_type").or (text "bet")).map BetKey.canonical
    amount := (step.arguments.get? "amount").map StepAmount.ofValue
    notes := text "notes", mode := text "mode", var := text "var"
    value := step.arguments.get? "value" }

/-- A step on one line. -/
def describe : Step → String
  | statements source _ => source
  | call c =>
    unwords (c.verb :: [c.bet, c.mode, c.var, c.amount.map StepAmount.display].filterMap id)

end Step

end CrapsStrategy
