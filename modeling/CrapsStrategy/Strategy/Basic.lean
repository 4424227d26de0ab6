import CrapsStrategy.Table.OddsPolicy
import CrapsStrategy.Template.Basic
import CrapsStrategy.Value.Basic

/-!
# `CrapsStrategy.Strategy.Basic`: strategies

A strategy is a table, variables to start with, modes with their
templates, and rules. A rule fires on an event, behind an optional
guard, and runs its steps. How often it may fire is up to its scope
(any time, once per hand, once per session), its cooldown and its
`once` flag.
-/

set_option autoImplicit false

namespace CrapsStrategy

/-- The table a strategy is for. -/
structure TableSection where
  bubble : Bool
  level : Binary64
  oddsPolicy : Option Value

/-- What a table asks of bets. A level that is not positive is no
minimum. -/
def TableSection.rules (table : TableSection) : TableRules :=
  { bubble := table.bubble
    level := if table.level.isFinite ∧ Binary64.less 0 table.level = true then
        table.level.saturate
      else 0
    odds := .ofOption table.oddsPolicy }

/-- How often a rule may fire. -/
inductive RuleScope where
  | roll | hand | session
deriving DecidableEq, Repr

def RuleScope.name : RuleScope → String
  | roll => "roll"
  | hand => "hand"
  | session => "session"

/-- The scope of an exact name. -/
def RuleScope.ofName? (text : String) : Option RuleScope :=
  [roll, hand, session].find? fun scope => scope.name == text

/-- A step with named arguments. -/
structure StepObject where
  action : Option String
  bet : Option String
  amount : Option Value
  notes : Option String
  mode : Option String
  var : Option String
  value : Option Value

/-- A step as it is written. -/
inductive StepText where
  | text (source : String)
  | object (step : StepObject)

/-- The single step of the short form, with its arguments by name. -/
structure ThenStep where
  verb : String
  arguments : KeyMap Value

/-- A rule as it is written. -/
structure RuleSection where
  name : Option String
  id : Option String
  /-- The event that triggers the rule, as written. -/
  event : Option String
  guard : Option String
  steps : List StepText
  thenStep : Option ThenStep
  scope : RuleScope
  cooldown : Nat
  once : Bool

/-- A strategy. -/
structure Strategy where
  table : TableSection
  vars : Variables
  modes : KeyMap Template
  rules : List RuleSection

end CrapsStrategy
