import CrapsStrategy.Event.Basic
import CrapsStrategy.Guard
import CrapsStrategy.Json.Printer
import CrapsStrategy.Strategy.Basic
import CrapsStrategy.Text.Words
import CrapsStrategy.Value.Document

/-!
# `CrapsStrategy.Strategy.Check`: what is wrong with a strategy document

A check goes through the whole document and collects everything it
finds, in the order of the sections and of the fields. Problems make
a document unusable; cautions tell of a default or of a step that
will be skipped. Each finding names the place it is about.
-/

set_option autoImplicit false

namespace CrapsStrategy

/-- What a field has to be. -/
inductive FieldForm where
  | mapping | list | boolean | number | text | textOrMapping | scope | count
deriving DecidableEq, Repr

def FieldForm.describe : FieldForm → String
  | mapping => "a mapping"
  | list => "a list"
  | boolean => "a boolean"
  | number => "a number"
  | text => "a string"
  | textOrMapping => "a string or a mapping"
  | scope => "one of roll, hand, session"
  | count => "a non-negative integer"

/-- What makes a document unusable. -/
inductive Problem where
  | notMapping
  | missingSection (name : String)
  | noModes
  | wrongForm (path : String) (form : FieldForm)
  /-- None of some fields is there. -/
  | missing (path : String) (fields : List String)
  | unknownField (path field : String)
  | notAmount (path : String)
  | unknownEvent (path event : String)
  | badText (path : String) (fault : Fault)
deriving DecidableEq

namespace Problem

/-- A name in quotes. -/
def quoted (name : String) : String :=
  "'" ++ name ++ "'"

def message : Problem → String
  | notMapping => "spec must be a mapping at the top level"
  | missingSection name => "missing required section " ++ quoted name
  | noModes => "modes must define at least one mode"
  | wrongForm path form => path ++ " must be " ++ form.describe
  | missing path fields =>
    path ++ ": missing " ++ String.intercalate " or " (fields.map quoted)
  | unknownField path field => path ++ ": unknown field " ++ quoted field
  | notAmount path =>
    path ++ ": expected a number, an expression string or a mapping with 'amount'"
  | unknownEvent path event => path ++ " " ++ quoted event ++ " is not a known event type"
  | badText path fault => path ++ ": " ++ fault.message

end Problem

/-- What a document should be told about. -/
inductive Caution where
  | noUnits
  | levelNotPositive (level : Binary64)
  | noLevel
  | unknownOdds (policy : Json)
  | noTemplate (mode : String)
  | skippedText (path text : String)
  | skippedVerb (path verb : String)

def Caution.message : Caution → String
  | noUnits => "variables.units is not defined; templates usually size from it"
  | levelNotPositive level =>
    "table.level is " ++ level.text ++ "; expected a positive minimum"
  | noLevel => "table.level not set; defaulting to 10"
  | unknownOdds policy =>
    "table.odds_policy " ++ policy.print ++ " not recognised; using 3-4-5x"
  | noTemplate mode => "modes." ++ mode ++ " has no template"
  | skippedText path text =>
    path ++ ": " ++ Problem.quoted text ++
      " is neither a known verb nor a statement; it will be skipped"
  | skippedVerb path verb =>
    path ++ ": unknown verb " ++ Problem.quoted verb ++ " will be skipped"

/-- The findings of a check. -/
structure Report where
  problems : List Problem
  cautions : List Caution

namespace Report

/-- A report without findings. -/
def clean : Report :=
  { problems := [], cautions := [] }

def problem (p : Problem) : Report :=
  { problems := [p], cautions := [] }

def caution (c : Caution) : Report :=
  { problems := [], cautions := [c] }

/-- The findings of two checks, one after the other. -/
def append (a b : Report) : Report :=
  { problems := a.problems ++ b.problems, cautions := a.cautions ++ b.cautions }

instance : Append Report := ⟨append⟩

/-- The findings of many checks in order. -/
def join (reports : List Report) : Report :=
  { problems := reports.flatMap problems, cautions := reports.flatMap cautions }

def isClean (r : Report) : Bool :=
  r.problems.isEmpty

end Report

namespace Check

open Report

/-- The findings on an optional field. -/
def optional (check : Json → Report) : Option Json → Report
  | some field => check field
  | none => clean

/-- A field that has to be of a form. -/
def form (path : String) (wanted : FieldForm) (holds : Json → Bool) (field : Json) : Report :=
  if holds field then clean else problem (.wrongForm path wanted)

def isBoolean (field : Json) : Bool :=
  field.bool?.isSome

/-! ## Templates -/

/-- An amount text has to be a script that passes the sandbox. -/
def amountText (path text : String) : Report :=
  match Script.compile text with
  | .ok _ => clean
  | .error fault => problem (.badText path fault)

/-- The fields that a sized bet does not have. -/
def unknownFields (path : String) (fields : List (String × Json)) : List Problem :=
  (fields.filter fun field => !SizedBet.fieldNames.contains field.1).map fun field =>
    .unknownField path field.1

mutual

/-- A template entry: a number, an amount text, a bet with its
`amount`, or, where groups are allowed, an object of entries. -/
def entry (groups : Bool) (path : String) : Json → Report
  | .int _ => clean
  | .float _ => clean
  | .text s => amountText path s
  | .object fields =>
    let inner := entries path fields
    match inner.lookup "amount" with
    | some amount =>
      amount ++ (inner.lookup "odds").getD clean ++
        optional (form (path ++ ".working") .boolean isBoolean) (fields.lookup "working") ++
        { problems := unknownFields path fields, cautions := [] }
    | none =>
      if groups then join (inner.map Prod.snd) else problem (.notAmount path)
  | _ => problem (.notAmount path)

/-- The findings on each field as an entry that is no group. -/
def entries (path : String) : List (String × Json) → List (String × Report)
  | [] => []
  | (name, field) :: fields =>
    (name, entry false (path ++ "." ++ name) field) :: entries path fields

end

/-- A mode has to be an object, and should have a template. -/
def mode (name : String) (field : Json) : Report :=
  let path := "modes." ++ name
  match field.object? with
  | none => problem (.wrongForm path .mapping)
  | some _ =>
    match field.field? "template" with
    | none => caution (.noTemplate name)
    | some template =>
      match template.object? with
      | none => problem (.wrongForm (path ++ ".template") .mapping)
      | some bets =>
        join (bets.map fun (bet, field) => entry true (path ++ ".template." ++ bet) field)

def modes (field : Json) : Report :=
  match field.object? with
  | none => problem (.wrongForm "modes" .mapping)
  | some fields =>
    (if fields.isEmpty then problem .noModes else clean) ++
      join (fields.map fun (name, field) => mode name field)

/-! ## Table and variables -/

def level : Option Json → Report
  | none => caution .noLevel
  | some field =>
    match field.number? with
    | some x => if Binary64.less 0 x then clean else caution (.levelNotPositive x)
    | none => problem (.wrongForm "table.level" .number)

def oddsPolicy (field : Json) : Report :=
  if (OddsPolicy.ofValue? (.ofJson field)).isSome then clean else caution (.unknownOdds field)

def table (field : Json) : Report :=
  match field.object? with
  | none => problem (.wrongForm "table" .mapping)
  | some fields =>
    optional (form "table.bubble" .boolean isBoolean) (fields.lookup "bubble") ++
      level (fields.lookup "level") ++
      optional oddsPolicy (fields.lookup "odds_policy")

def vars (field : Json) : Report :=
  match field.object? with
  | none => problem (.wrongForm "variables" .mapping)
  | some fields => if (fields.lookup "units").isSome then clean else caution .noUnits

/-! ## Rules -/

/-- The verbs that steps are written with. -/
def knownVerbs : List String :=
  ["set", "clear", "press", "reduce", "switch_mode", "switch_profile", "setvar"]

/-- A verb, case aside. -/
def isKnownVerb (verb : String) : Bool :=
  knownVerbs.contains (Text.lower verb)

/-- The verb that an object step names. -/
def stepVerb? (fields : List (String × Json)) : Option String :=
  match fields.lookup "action" with
  | some action => action.text?
  | none => (fields.lookup "verb").bind Json.text?

def step (path : String) : Json → Report
  | .text s =>
    if isKnownVerb (Text.firstWord s) then clean
    else match Script.compile s with
      | .ok _ => clean
      | .error _ => caution (.skippedText path s)
  | .object fields =>
    match stepVerb? fields with
    | some verb => if isKnownVerb verb then clean else caution (.skippedVerb path verb)
    | none => problem (.missing path ["action"])
  | _ => problem (.wrongForm path .textOrMapping)

/-- The event that a trigger names. -/
def trigger (path : String) (on : Option Json) : Report :=
  match (on.bind (Json.field? "event")).bind Json.text? with
  | some event =>
    if (EventKind.read? event).isSome then clean
    else problem (.unknownEvent (path ++ ".on.event") event)
  | none => problem (.missing path ["on.event"])

def guard (path : String) (field : Json) : Report :=
  match field.text? with
  | none => problem (.wrongForm path .text)
  | some s =>
    match Guard.compile s with
    | .ok _ => clean
    | .error fault => problem (.badText path fault)

def steps (path : String) (field : Json) : Report :=
  match field.array? with
  | none => problem (.wrongForm path .list)
  | some items =>
    join (items.zipIdx.map fun (item, i) => step (path ++ "[" ++ toString i ++ "]") item)

def thenStep (path : String) (field : Json) : Report :=
  match (field.field? "verb").bind Json.text? with
  | some _ => clean
  | none => problem (.missing path ["verb"])

def isScope (field : Json) : Bool :=
  (field.text?.bind RuleScope.ofName?).isSome

def isCount : Json → Bool
  | .int i => decide (0 ≤ i)
  | _ => false

def rule (path : String) (field : Json) : Report :=
  match field.object? with
  | none => problem (.wrongForm path .mapping)
  | some fields =>
    trigger path (fields.lookup "on") ++
      (if (fields.lookup "do").isSome || (fields.lookup "then").isSome then clean
        else problem (.missing path ["do", "then"])) ++
      optional (guard (path ++ ".when")) (fields.lookup "when") ++
      optional (steps (path ++ ".do")) (fields.lookup "do") ++
      optional (thenStep (path ++ ".then")) (fields.lookup "then") ++
      optional (form (path ++ ".scope") .scope isScope) (fields.lookup "scope") ++
      optional (form (path ++ ".cooldown") .count isCount) (fields.lookup "cooldown") ++
      optional (form (path ++ ".once") .boolean isBoolean) (fields.lookup "once")

def rules (field : Json) : Report :=
  match field.array? with
  | none => problem (.wrongForm "rules" .list)
  | some items =>
    join (items.zipIdx.map fun (item, i) => rule ("rules[" ++ toString i ++ "]") item)

/-- The sections that every document has. -/
def requiredSections : List String :=
  ["table", "variables", "modes", "rules"]

/-- The required sections that are not there. -/
def missingSections (fields : List (String × Json)) : List Problem :=
  (requiredSections.filter fun name => (fields.lookup name).isNone).map .missingSection

end Check

/-- The findings on a strategy document. -/
def Strategy.check (document : Json) : Report :=
  match document.object? with
  | none => .problem .notMapping
  | some fields =>
    { problems := Check.missingSections fields, cautions := [] } ++
      Check.optional Check.table (fields.lookup "table") ++
      Check.optional Check.vars (fields.lookup "variables") ++
      Check.optional Check.modes (fields.lookup "modes") ++
      Check.optional Check.rules (fields.lookup "rules")

end CrapsStrategy
