import CrapsStrategy.Binary64.Basic
import CrapsStrategy.Text.Blank
import CrapsStrategy.Text.Lowercase

/-!
# `CrapsStrategy.Event.Basic`: table events

What happens at a craps table is one of six kinds of events. An event
carries the state of the table once it has happened, but for two
fields: `point` is the point the event is about, also when it was
just made or lost, and a `comeout` marker comes before its roll.
-/

set_option autoImplicit false

namespace CrapsStrategy

/-- The kinds of table events. -/
inductive EventKind where
  | comeout | roll | pointEstablished | pointMade | sevenOut | betResolved
deriving DecidableEq, Repr

namespace EventKind

def all : List EventKind :=
  [comeout, roll, pointEstablished, pointMade, sevenOut, betResolved]

def name : EventKind → String
  | comeout => "comeout"
  | roll => "roll"
  | pointEstablished => "point_established"
  | pointMade => "point_made"
  | sevenOut => "seven_out"
  | betResolved => "bet_resolved"

/-- The kind of an exact name. -/
def ofName? (text : String) : Option EventKind :=
  all.find? fun kind => kind.name == text

/-- Reads a kind, blanks around it and case aside. -/
def read? (text : String) : Option EventKind :=
  ofName? (Text.lower (Text.trim text))

/-- The wording for a text that names no kind. -/
def unknownMessage (text : String) : String :=
  "Unknown event type: " ++ text

end EventKind

/-- What a table has seen since it was opened. -/
structure Counters where
  pointsEstablished : Nat
  pointsMade : Nat
  sevenOuts : Nat
  /-- Sevens right after the point was set. -/
  pointSevenOuts : Nat
deriving DecidableEq, Repr

def Counters.zero : Counters :=
  { pointsEstablished := 0, pointsMade := 0, sevenOuts := 0, pointSevenOuts := 0 }

instance : Inhabited Counters := ⟨.zero⟩

/-- How a bet came out. -/
structure Resolution where
  bet : String
  result : String
  payout : Option Binary64
deriving DecidableEq

/-- A table event. -/
structure Event where
  kind : EventKind
  total : Option Nat
  dice : Option (Nat × Nat)
  point : Option Nat
  onComeout : Bool
  rollIndex : Nat
  handId : Nat
  rollInHand : Nat
  rollsSincePoint : Nat
  counters : Counters
  resolution : Option Resolution
deriving DecidableEq

end CrapsStrategy
