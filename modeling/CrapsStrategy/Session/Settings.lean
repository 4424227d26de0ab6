import CrapsStrategy.Session.Run

/-!
# `CrapsStrategy.Session.Settings`: a scripted session

Settings name a strategy file, a bankroll and the rolls to play, with
or without their dice. Every field may be left out. A section may
also be written as the list of its fields' values in order; more
values than fields are no harm.
-/

set_option autoImplicit false

namespace CrapsStrategy

/-- What to play and how to report on it. -/
structure Settings where
  /-- Whether the trace of the rules is kept. -/
  trace : Bool
  strategyPath : String
  bankroll : Binary64
  rolls : List Nat
  /-- The dice of each roll, or nothing. -/
  dice : List (Nat × Nat)
  logFilter : Option String
  logJson : Bool

/-- Why settings cannot be played. -/
inductive SettingsFault where
  | badTotal (total : Nat)
  | unevenDice (dice rolls : Nat)
deriving DecidableEq, Repr

def SettingsFault.message : SettingsFault → String
  | badTotal total =>
    "Configuration error: replay.rolls contains " ++ toString total ++ "; totals are 2..=12"
  | unevenDice dice rolls =>
    "Configuration error: replay.dice has " ++ toString dice ++ " pairs for " ++
      toString rolls ++ " rolls"

namespace Settings

/-- The fields of a section. -/
def section? (names : List String) : Option Json → Option (List (String × Json))
  | none => some []
  | some (.object fields) => some fields
  | some (.array values) => some (names.zip values)
  | some _ => none

/-- A field with a value to fall back on. -/
def field? {α : Type} (read : Json → Option α) (fallback : α) (fields : List (String × Json))
    (name : String) : Option α :=
  match fields.lookup name with
  | some field => read field
  | none => some fallback

/-- The greatest number on a die or of a total that can be written. -/
def maxTotal : Nat := 255

/-- Reads a pair of dice, the first two of a list. -/
def pair? : Json → Option (Nat × Nat)
  | .array (a :: b :: _) => do return (← a.natUpTo? maxTotal, ← b.natUpTo? maxTotal)
  | _ => none

/-- Reads each item of a list. -/
def list? {α : Type} (read : Json → Option α) (j : Json) : Option (List α) := do
  (← j.array?).mapM read

/-- The bankroll of settings that name none. -/
def defaultBankroll : Binary64 := 1000

/-- The strategy file of settings that name none. -/
def defaultPath : String := "strategy.yaml"

/-- Reads settings. -/
def ofJson? (j : Json) : Option Settings := do
  let engine ← section? ["trace"] (j.field? "engine")
  let replay ← section? ["spec_path", "bankroll", "rolls", "dice"] (j.field? "replay")
  let logging ← section? ["filter", "json"] (j.field? "logging")
  return {
    trace := ← field? Json.bool? false engine "trace"
    strategyPath := ← field? Json.text? defaultPath replay "spec_path"
    bankroll := ← field? Json.number? defaultBankroll replay "bankroll"
    rolls := ← field? (list? (Json.natUpTo? maxTotal)) [] replay "rolls"
    dice := ← field? (list? pair?) [] replay "dice"
    logFilter := ← field? (fun field => field.text?.map some) none logging "filter"
    logJson := ← field? Json.bool? false logging "json" }

/-- Whether a total is one of two dice. -/
def isTotal (total : Nat) : Bool :=
  decide (2 ≤ total ∧ total ≤ 12)

/-- Every total has to be one of two dice, and where there are dice,
each roll has its own. -/
def check (settings : Settings) : Except SettingsFault Unit :=
  match settings.rolls.find? fun total => !isTotal total with
  | some total => .error (.badTotal total)
  | none =>
    if settings.dice ≠ [] ∧ settings.dice.length ≠ settings.rolls.length then
      .error (.unevenDice settings.dice.length settings.rolls.length)
    else .ok ()

/-- The rolls in order, each with its dice if there are some. -/
def schedule (settings : Settings) : List (Nat × Option (Nat × Nat)) :=
  settings.rolls.zipIdx.map fun (total, index) => (total, settings.dice[index]?)

end Settings

end CrapsStrategy
