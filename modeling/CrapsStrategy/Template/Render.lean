import CrapsStrategy.Formula
import CrapsStrategy.Snapshot
import CrapsStrategy.Table.Legal
import CrapsStrategy.Template.Basic

/-!
# `CrapsStrategy.Template.Render`: templates to legal bets

Rendering computes each amount in the merged namespace of a snapshot
and makes it legal. An amount without a positive finite value, or
without a legal one, leaves its bet out.

Odds come last, when all line bets are known: only with a point on,
only behind a line bet that is there, and capped by it.
-/

set_option autoImplicit false

namespace CrapsStrategy

/-- Odds that a template asks for. -/
structure OddsRequest where
  side : LineSide
  raw : Binary64
  working : Bool
deriving DecidableEq

/-- The wanted bets, and the odds that stay up with the puck off. -/
structure Rendered where
  bets : Layout
  working : KeySet

namespace Amount

/-- The positive finite value of an amount. -/
def positive? (a : Amount) (scope : Scope) : Option Binary64 :=
  let raw := match a with
    | number x => some x
    | formula text => (Formula.number text scope).toOption
  raw.filter fun x => x.isFinite && Binary64.less 0 x

end Amount

namespace TemplateEntry

/-- The positive value of the amount of an entry. -/
def positive? (scope : Scope) : TemplateEntry → Option Binary64
  | amount a => a.positive? scope
  | sized bet => bet.amount.positive? scope
  | nested _ => none

/-- Whether an entry asks for working odds. -/
def asksWorking : TemplateEntry → Bool
  | sized bet => bet.working == some true
  | _ => false

end TemplateEntry

namespace Render

/-- The line and place bets so far, and the odds to come. -/
structure Draft where
  bets : Layout
  requests : List OddsRequest

/-- A layout with a bet at the legal amount for a raw one, if there
is one. -/
def place (table : TableRules) (key : String) (bets : Layout) (raw : Option Binary64) : Layout :=
  match raw with
  | some raw =>
    let amount := Legal.bet key raw table
    if 0 < amount then bets.insert key amount else bets
  | none => bets

/-- One number of the `place` group. -/
def placeEntry (table : TableRules) (scope : Scope) (bets : Layout)
    (entry : String × TemplateEntry) : Layout :=
  place table (BetKey.canonical ("place_" ++ entry.1)) bets (entry.2.positive? scope)

/-- The request of one side of the `odds` group. -/
def sideRequest? (scope : Scope) (entry : String × TemplateEntry) : Option OddsRequest := do
  let side ← LineSide.ofKey? entry.1
  let raw ← entry.2.positive? scope
  return { side, raw, working := entry.2.asksWorking }

/-- The request of the odds that a bet comes with. -/
def ownRequest? (scope : Scope) (key : String) (bet : SizedBet) : Option OddsRequest := do
  let side ← LineSide.ofKey? key
  let raw ← (← bet.odds).positive? scope
  return { side, raw, working := bet.working.getD false }

/-- A draft after one entry of the template. -/
def step (table : TableRules) (scope : Scope) (draft : Draft)
    (entry : String × TemplateEntry) : Draft :=
  let key := BetKey.canonical entry.1
  match entry.2 with
  | .nested entries =>
    if key = "place" then
      { draft with bets := entries.foldl (placeEntry table scope) draft.bets }
    else if key = "odds" then
      { draft with requests := draft.requests ++ entries.filterMap (sideRequest? scope) }
    else draft
  | .amount a => { draft with bets := place table key draft.bets (a.positive? scope) }
  | .sized bet =>
    { bets := place table key draft.bets (bet.amount.positive? scope)
      requests := draft.requests ++ (ownRequest? scope key bet).toList }

/-- The legal odds of a request behind a line bet. -/
def oddsAmount (table : TableRules) (point : Nat) (base : Int) (request : OddsRequest) : Int :=
  match request.side with
  | .pass => Legal.passOdds point base request.raw table
  | .dont => Legal.layOdds point base request.raw table

/-- The bets after a request for odds on a point. -/
def addOdds (table : TableRules) (point : Nat) (r : Rendered) (request : OddsRequest) :
    Rendered :=
  let base := (r.bets.get? request.side.lineKey).getD 0
  let amount := oddsAmount table point base request
  if 0 < base ∧ 0 < amount then
    let key := request.side.oddsKey point
    { bets := r.bets.insert key amount
      working := if request.working then r.working.insert key () else r.working }
  else r

end Render

/-- The legal bets that a template wants at a snapshot. -/
def Template.render (template : Template) (snapshot : Snapshot) (table : TableRules) : Rendered :=
  let scope := Scope.ofVariables snapshot.merged
  let draft := template.entries.foldl (Render.step table scope) { bets := .empty, requests := [] }
  let flat : Rendered := { bets := draft.bets, working := .empty }
  match snapshot.point with
  | some point => draft.requests.foldl (Render.addOdds table point) flat
  | none => flat

end CrapsStrategy
