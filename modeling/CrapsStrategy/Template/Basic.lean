import CrapsStrategy.Json.Basic

/-!
# `CrapsStrategy.Template.Basic`: the bets a mode wants

A template names bets and their amounts, each a number or a formula.
A bet may come with odds behind it; `place` and `odds` group entries
under one name.

In a document an entry is a number, a formula text, a bet with its
`amount` and no fields but `working` and `odds`, or else an object of
entries. A bet may also be the list of those three in order, the last
ones left out.
-/

set_option autoImplicit false

namespace CrapsStrategy

/-- A number, or an expression of the wide dialect. -/
inductive Amount where
  | number (x : Binary64)
  | formula (text : String)
deriving DecidableEq

/-- A bet with its odds. -/
structure SizedBet where
  amount : Amount
  working : Option Bool
  odds : Option Amount
deriving DecidableEq

/-- What a template says under one name. -/
inductive TemplateEntry where
  | amount (a : Amount)
  | sized (bet : SizedBet)
  | nested (entries : List (String × TemplateEntry))

/-- The bets a mode wants, by name. -/
abbrev Template := KeyMap TemplateEntry

namespace Amount

/-- Reads an amount. -/
def ofJson? : Json → Option Amount
  | .text s => some (formula s)
  | j => j.number?.map number

end Amount

/-- The fields of a sized bet. -/
def SizedBet.fieldNames : List String :=
  ["amount", "working", "odds"]

/-- Reads a sized bet; a field it does not know is refused. -/
def SizedBet.ofFields? (fields : List (String × Json)) : Option SizedBet := do
  let amount ← Amount.ofJson? (← fields.lookup "amount")
  let working ← Json.optional? Json.bool? (fields.lookup "working")
  let odds ← Json.optional? Amount.ofJson? (fields.lookup "odds")
  if fields.all fun field => SizedBet.fieldNames.contains field.1 then
    some { amount, working, odds }
  else none

namespace TemplateEntry

mutual

/-- Reads an entry. -/
def ofJson? : Json → Option TemplateEntry
  | .int i => some (amount (.number (.ofInt i)))
  | .float x => some (amount (.number x))
  | .text s => some (amount (.formula s))
  | .object fields =>
    -- An object that is no sized bet is a group, also with an `amount`.
    match SizedBet.ofFields? fields with
    | some bet => some (sized bet)
    | none => (ofFields? fields).map nested
  | .array values =>
    if values.length ≤ 3 then (SizedBet.ofFields? (SizedBet.fieldNames.zip values)).map sized
    else none
  | _ => none

def ofFields? : List (String × Json) → Option (List (String × TemplateEntry))
  | [] => some []
  | (name, field) :: fields => do
    let entry ← ofJson? field
    let entries ← ofFields? fields
    return (name, entry) :: entries

end

end TemplateEntry

/-- Reads a template. -/
def Template.ofJson? (j : Json) : Option Template := do
  return KeyMap.ofList (← TemplateEntry.ofFields? (← j.object?))

end CrapsStrategy
