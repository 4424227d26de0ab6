import CrapsStrategy.Strategy.Basic
import CrapsStrategy.Value.Document

/-!
# `CrapsStrategy.Strategy.Decode`: strategies from documents

Decoding is strict about types and lenient about the rest: a field
that a record does not have is ignored, a field that is not required
may be missing, and null counts as missing where a value is optional.
A record may also be written as the list of its fields' values in
order, the last ones left out.
-/

set_option autoImplicit false

namespace CrapsStrategy

namespace Decode

/-- The fields of a record: those of an object, or the values of a
list under the record's names in order. -/
def record? (names : List String) : Json → Option (List (String × Json))
  | .object fields => some fields
  | .array values => if values.length ≤ names.length then some (names.zip values) else none
  | _ => none

/-- A field with a value to fall back on; null is refused. -/
def fieldOr? {α : Type} (read : Json → Option α) (fallback : α) : Option Json → Option α
  | none => some fallback
  | some field => read field

/-- An optional text. -/
def text? : Option Json → Option (Option String) :=
  Json.optional? Json.text?

/-- An optional value. Null is no value. -/
def value? : Option Json → Option (Option Value) :=
  Json.optional? fun field => some (Value.ofJson field)

/-- Reads each item of a list. -/
def list? {α : Type} (read : Json → Option α) (j : Json) : Option (List α) := do
  (← j.array?).mapM read

/-- Reads each field of an object. -/
def map? {α : Type} (read : Json → Option α) (j : Json) : Option (KeyMap α) := do
  let entries ← (← j.object?).mapM fun (name, field) => do return (name, ← read field)
  return KeyMap.ofList entries

/-- Variables by name. -/
def variables? (j : Json) : Option Variables :=
  map? (fun field => some (Value.ofJson field)) j

end Decode

open Decode

namespace TableSection

/-- The level of a table that names none. -/
def defaultLevel : Binary64 := 10

def ofJson? (j : Json) : Option TableSection := do
  let fields ← record? ["bubble", "level", "odds_policy"] j
  let bubble ← fieldOr? Json.bool? false (fields.lookup "bubble")
  let level ← fieldOr? Json.number? defaultLevel (fields.lookup "level")
  let oddsPolicy ← value? (fields.lookup "odds_policy")
  return { bubble, level, oddsPolicy }

end TableSection

namespace RuleScope

/-- Reads a scope, by its name or as an object with its name and
null. -/
def ofJson? : Json → Option RuleScope
  | .text s => ofName? s
  | .object [(s, .null)] => ofName? s
  | _ => none

end RuleScope

namespace StepObject

/-- A field under either of two names, but not both. -/
def aliased? (first second : String) (fields : List (String × Json)) : Option (Option String) :=
  match fields.lookup first, fields.lookup second with
  | some _, some _ => none
  | some field, none => text? (some field)
  | none, field => text? field

def ofJson? (j : Json) : Option StepObject := do
  let fields ← record? ["action", "bet_type", "amount", "notes", "mode", "var", "value"] j
  let action ← aliased? "action" "verb" fields
  let bet ← aliased? "bet_type" "bet" fields
  let amount ← value? (fields.lookup "amount")
  let notes ← text? (fields.lookup "notes")
  let mode ← text? (fields.lookup "mode")
  let var ← text? (fields.lookup "var")
  let value ← value? (fields.lookup "value")
  return { action, bet, amount, notes, mode, var, value }

end StepObject

namespace StepText

/-- Reads a step. -/
def ofJson? : Json → Option StepText
  | .text s => some (text s)
  | j => (StepObject.ofJson? j).map object

end StepText

namespace ThenStep

/-- Reads the short form. -/
def ofJson? (j : Json) : Option ThenStep := do
  let fields ← record? ["verb", "args"] j
  let verb ← (← fields.lookup "verb").text?
  let arguments ← fieldOr? variables? .empty (fields.lookup "args")
  return { verb, arguments }

end ThenStep

namespace RuleSection

/-- The greatest cooldown. -/
def maxCooldown : Nat := 4294967295

/-- Reads the event of a trigger. -/
def trigger? (j : Json) : Option String := do
  (← (← record? ["event"] j).lookup "event").text?

def ofJson? (j : Json) : Option RuleSection := do
  let fields ← record?
    ["name", "id", "on", "when", "do", "then", "scope", "cooldown", "once"] j
  let name ← text? (fields.lookup "name")
  let id ← text? (fields.lookup "id")
  let event ← Json.optional? trigger? (fields.lookup "on")
  let guard ← text? (fields.lookup "when")
  let steps ← fieldOr? (list? StepText.ofJson?) [] (fields.lookup "do")
  let thenStep ← Json.optional? ThenStep.ofJson? (fields.lookup "then")
  let scope ← fieldOr? RuleScope.ofJson? .roll (fields.lookup "scope")
  let cooldown ← fieldOr? (Json.natUpTo? maxCooldown) 0 (fields.lookup "cooldown")
  let once ← fieldOr? Json.bool? false (fields.lookup "once")
  return { name, id, event, guard, steps, thenStep, scope, cooldown, once }

end RuleSection

namespace Strategy

/-- Reads the template of a mode. -/
def mode? (j : Json) : Option Template := do
  fieldOr? Template.ofJson? .empty ((← record? ["template"] j).lookup "template")

/-- Reads a strategy. -/
def ofJson? (j : Json) : Option Strategy := do
  let fields ← record? ["table", "variables", "modes", "rules"] j
  let table ← TableSection.ofJson? (← fields.lookup "table")
  let vars ← fieldOr? variables? .empty (fields.lookup "variables")
  let modes ← map? mode? (← fields.lookup "modes")
  let rules ← fieldOr? (list? RuleSection.ofJson?) [] (fields.lookup "rules")
  return { table, vars, modes, rules }

end Strategy

end CrapsStrategy
