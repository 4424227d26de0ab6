import CrapsStrategy.Table.Point
import CrapsStrategy.Text.Blank
import CrapsStrategy.Text.Integer
import CrapsStrategy.Text.Lowercase

/-!
# `CrapsStrategy.Table.BetKey`: the names of bets

A bet has one key on the layout: `pass_line`, `dont_pass`,
`place_6`. `canonical` brings the usual spellings to that key.
-/

set_option autoImplicit false

namespace CrapsStrategy

/-- The sides of the line that odds go behind. -/
inductive LineSide where
  | pass | dont
deriving DecidableEq, Repr

namespace BetKey

/-- The key of a cleaned spelling. A number right after `place` gets
its low line. -/
def ofSpelling (cs : List Char) : List Char :=
  match String.ofList cs with
  | "pass" | "passline" => "pass_line".toList
  | "dont" | "dontpass" => "dont_pass".toList
  | "dontcome" => "dont_come".toList
  | _ =>
    let number := cs.drop 5
    if "place".toList.isPrefixOf cs ∧ number ≠ [] ∧ number.all Text.isDigit = true then
      "place_".toList ++ number
    else cs

/-- The key of a bet: blanks around it, case and apostrophes aside,
one of several spellings. -/
def canonical (key : String) : String :=
  -- The apostrophes go after the blanks, so a blank behind one stays.
  String.ofList (ofSpelling ((Text.lower (Text.trim key)).toList.filter (· ≠ '\'')))

/-- The number of a place bet. -/
def placeNumber? (key : String) : Option Nat :=
  if "place_".toList.isPrefixOf key.toList then
    (Text.natUpTo? 255 (String.ofList (key.toList.drop 6))).filter isPoint
  else none

end BetKey

namespace LineSide

/-- The side that a key names. -/
def ofKey? (key : String) : Option LineSide :=
  match BetKey.canonical key with
  | "pass_line" => some pass
  | "dont_pass" => some dont
  | _ => none

/-- The key of the line bet. -/
def lineKey : LineSide → String
  | pass => "pass_line"
  | dont => "dont_pass"

/-- The key of the odds behind it on a point. -/
def oddsKey (side : LineSide) (point : Nat) : String :=
  match side with
  | pass => "odds_" ++ toString point ++ "_pass"
  | dont => "odds_" ++ toString point ++ "_dont"

end LineSide

end CrapsStrategy
