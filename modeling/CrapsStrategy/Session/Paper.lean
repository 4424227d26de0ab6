import CrapsStrategy.Binary64.Arithmetic
import CrapsStrategy.Envelope
import CrapsStrategy.Snapshot

/-!
# `CrapsStrategy.Session.Paper`: a table on paper

A betting table is what envelopes are applied to: it has a layout and
a bankroll. A paper table has nothing else. It pays nothing out and
only moves money between the two, in whole dollars; the nearest whole
dollar counts, and of two equally near the one further from zero.
-/

set_option autoImplicit false

namespace CrapsStrategy

/-- A bet after an envelope was applied. -/
structure AppliedAction where
  id : String
  action : ActionKind
  bet : String
  /-- The amount that the bet was moved to. -/
  amount : Int
deriving DecidableEq, Repr

/-- An envelope without a bet. -/
structure SkippedAction where
  id : String
  action : ActionKind
deriving DecidableEq, Repr

/-- Why an envelope was skipped. -/
def SkippedAction.reason (_ : SkippedAction) : String :=
  "no bet type"

/-- What came of some envelopes. -/
structure ApplyReport where
  applied : List AppliedAction
  skipped : List SkippedAction
  /-- The money that went onto the layout. -/
  net : Binary64

def ApplyReport.empty : ApplyReport :=
  { applied := [], skipped := [], net := 0 }

/-- A table that bets are placed on. -/
class BettingTable (τ : Type) where
  bets : τ → Layout
  bankroll : τ → Binary64
  /-- Applies envelopes in order. -/
  applyAll : τ → List Envelope → τ × ApplyReport

/-- A layout and a bankroll. -/
structure PaperTable where
  bets : Layout
  bankroll : Binary64

namespace PaperTable

/-- The money on the layout. -/
def exposure (table : PaperTable) : Int :=
  table.bets.entries.foldl (fun sum entry => sum + entry.2) 0

/-- The table without a bet, whose money is gone. -/
def remove (table : PaperTable) (bet : String) : PaperTable :=
  { table with bets := table.bets.erase bet }

/-- The amount of a bet, zero where there is none. -/
def amount (table : PaperTable) (bet : String) : Int :=
  (table.bets.get? bet).getD 0

/-- The money that moving a bet to an amount takes. -/
def cost (table : PaperTable) (bet : String) (target : Int) : Binary64 :=
  .ofInt (target - table.amount bet)

/-- The table with a bet moved to an amount, paid from the bankroll.
A bet at no positive amount comes down. -/
def moveTo (table : PaperTable) (bet : String) (target : Int) : PaperTable :=
  { bets := if 0 < target then table.bets.insert bet target else table.bets.erase bet
    bankroll := table.bankroll.sub (table.cost bet target) }

/-- The whole dollars of an amount. -/
def wholeDollars (amount : Option Binary64) : Int :=
  match amount with
  | some x => x.roundAway.saturate
  | none => 0

/-- The amount that an envelope moves a bet to. -/
def target (action : ActionKind) (current amount : Int) : Int :=
  match action with
  | .set => amount
  | .press => current + amount
  | .reduce => max 0 (current - amount)
  | _ => 0

/-- The table and the report after one more envelope. -/
def step (state : PaperTable × ApplyReport) (e : Envelope) : PaperTable × ApplyReport :=
  let (table, report) := state
  if e.action.mutatesBets then
    match e.bet with
    | none =>
      (table, { report with
        skipped := report.skipped ++ [{ id := e.id, action := e.action }] })
    | some bet =>
      let target := target e.action (table.amount bet) (wholeDollars e.amount)
      (table.moveTo bet target,
        { report with
          applied := report.applied ++
            [{ id := e.id, action := e.action, bet, amount := target }]
          net := report.net.add (table.cost bet target) })
  else state

/-- Applies envelopes in order. -/
def applyAll (table : PaperTable) (actions : List Envelope) : PaperTable × ApplyReport :=
  actions.foldl step (table, .empty)

instance : BettingTable PaperTable where
  bets := PaperTable.bets
  bankroll := PaperTable.bankroll
  applyAll := PaperTable.applyAll

end PaperTable

end CrapsStrategy
