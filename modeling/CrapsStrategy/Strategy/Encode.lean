import CrapsStrategy.Strategy.Basic
import CrapsStrategy.Value.Document

/-!
# `CrapsStrategy.Strategy.Encode`: strategies as documents

The document of a strategy names every field of every record. What
is optional and absent is null.
-/

set_option autoImplicit false

namespace CrapsStrategy

namespace Encode

/-- The document of a number. -/
def number (x : Binary64) : Json :=
  (Value.float x).toJson

/-- The document of a map. -/
def map {α : Type} (f : α → Json) (m : KeyMap α) : Json :=
  .object (m.mapValues f).entries

end Encode

open Encode
open Json (nullable)

def Amount.toJson : Amount → Json
  | number x => Encode.number x
  | formula s => .text s

def SizedBet.toJson (bet : SizedBet) : Json :=
  .ofFields [("amount", bet.amount.toJson), ("working", nullable .bool bet.working),
    ("odds", nullable Amount.toJson bet.odds)]

namespace TemplateEntry

mutual

def toJson : TemplateEntry → Json
  | amount a => a.toJson
  | sized bet => bet.toJson
  | nested entries => .object (toFields entries)

def toFields : List (String × TemplateEntry) → List (String × Json)
  | [] => []
  | (name, entry) :: entries => (name, toJson entry) :: toFields entries

end

end TemplateEntry

def TableSection.toJson (table : TableSection) : Json :=
  .ofFields [("bubble", .bool table.bubble), ("level", number table.level),
    ("odds_policy", nullable Value.toJson table.oddsPolicy)]

def StepObject.toJson (step : StepObject) : Json :=
  .ofFields [("action", nullable .text step.action), ("bet_type", nullable .text step.bet),
    ("amount", nullable Value.toJson step.amount), ("notes", nullable .text step.notes),
    ("mode", nullable .text step.mode), ("var", nullable .text step.var),
    ("value", nullable Value.toJson step.value)]

def StepText.toJson : StepText → Json
  | text source => .text source
  | object step => step.toJson

def ThenStep.toJson (step : ThenStep) : Json :=
  .ofFields [("verb", .text step.verb), ("args", map Value.toJson step.arguments)]

def RuleSection.toJson (rule : RuleSection) : Json :=
  .ofFields [("name", nullable .text rule.name), ("id", nullable .text rule.id),
    ("on", nullable (fun event => .ofFields [("event", .text event)]) rule.event),
    ("when", nullable .text rule.guard), ("do", .array (rule.steps.map StepText.toJson)),
    ("then", nullable ThenStep.toJson rule.thenStep), ("scope", .text rule.scope.name),
    ("cooldown", .int rule.cooldown), ("once", .bool rule.once)]

namespace Strategy

/-- The document of a mode. -/
def modeToJson (template : Template) : Json :=
  .ofFields [("template", map TemplateEntry.toJson template)]

def toJson (strategy : Strategy) : Json :=
  .ofFields [("table", strategy.table.toJson),
    ("variables", map Value.toJson strategy.vars),
    ("modes", map modeToJson strategy.modes),
    ("rules", .array (strategy.rules.map RuleSection.toJson))]

end Strategy

end CrapsStrategy
