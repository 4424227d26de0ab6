import CrapsStrategy.Envelope
import CrapsStrategy.Template.Render

/-!
# `CrapsStrategy.Template.Plan`: from one layout to another

A bet never changes in place: it is cleared and set again. `changes`
lists all clears and then all sets, each in the order of the keys,
and only bets that differ; amounts that are not positive count as no
bet. A plan is the changes from the bets on the layout to those that
a template wants, as envelopes.
-/

set_option autoImplicit false

namespace CrapsStrategy

/-- One change of a layout. -/
inductive BetChange where
  | clear (bet : String)
  | set (bet : String) (amount : Int)
deriving DecidableEq, Repr

namespace Layout

/-- The positive amount of a bet. -/
def positive? (layout : Layout) (bet : String) : Option Int :=
  (KeyMap.get? layout bet).filter fun amount => decide (0 < amount)

/-- The positive bets of a layout that another does not have at the
same amount. -/
def notIn (layout other : Layout) : List (String × Int) :=
  layout.entries.filter fun (bet, amount) =>
    decide (0 < amount) && decide (positive? other bet ≠ some amount)

/-- The changes that turn one layout into another. -/
def changes (current desired : Layout) : List BetChange :=
  (notIn current desired).map (fun (bet, _) => .clear bet) ++
    (notIn desired current).map fun (bet, amount) => .set bet amount

end Layout

namespace BetChange

/-- The notes of template envelopes. -/
def notes : String := "template diff"

/-- A change as an envelope of a mode's template. -/
def envelope (mode : String) (working : KeySet) : BetChange → Envelope
  | clear bet => (Envelope.clear .template ("template:" ++ mode) bet).withNotes notes
  | set bet amount =>
    let e := (Envelope.wager .template ("template:" ++ mode) .set bet (.ofInt amount)).withNotes
      notes
    if working.contains bet then e.withWorking true else e

end BetChange

/-- The changes that a template asks for. -/
structure Plan where
  mode : String
  desired : Layout
  changes : List BetChange
  actions : List Envelope

namespace Plan

/-- Whether there is nothing to do. -/
def isNoop (plan : Plan) : Bool :=
  plan.changes.isEmpty

/-- The plan from the bets of a snapshot to a mode's template. -/
def make (table : TableRules) (mode : String) (template : Template) (snapshot : Snapshot) : Plan :=
  let rendered := template.render snapshot table
  let changes := Layout.changes snapshot.bets rendered.bets
  { mode, desired := rendered.bets, changes,
    actions := changes.map (BetChange.envelope mode rendered.working) }

end Plan

end CrapsStrategy
