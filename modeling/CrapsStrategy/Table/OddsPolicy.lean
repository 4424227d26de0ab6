import CrapsStrategy.Table.Point
import CrapsStrategy.Text.Blank
import CrapsStrategy.Text.Integer
import CrapsStrategy.Text.Lowercase
import CrapsStrategy.Value.Basic

/-!
# `CrapsStrategy.Table.OddsPolicy`: how much odds a table takes

A table takes odds up to a multiple of the line bet. The multiple is
3, 4 or 5 by how hard the point is to make, or the same on every
point.
-/

set_option autoImplicit false

namespace CrapsStrategy

/-- The greatest odds as a multiple of the line bet. -/
inductive OddsPolicy where
  | threeFourFive
  | uniform (multiple : Nat)
deriving DecidableEq, Repr

namespace OddsPolicy

/-- The greatest multiple that can be asked for. -/
def maxMultiple : Nat := 4294967295

/-- The policy of a text: `3-4-5x` in one of its spellings, or a
number, with or without an `x` after it. Blanks and case do not
matter. -/
def ofText? (text : String) : Option OddsPolicy :=
  let cs := (Text.lower (Text.trim text)).toList.filter fun c => !Text.isBlank c
  let cs := if cs.getLast? = some 'x' then cs.dropLast else cs
  let stem := String.ofList cs
  if ["3-4-5", "345", "3_4_5"].contains stem then some threeFourFive
  else (Text.natUpTo? maxMultiple stem).map uniform

/-- The policy of a value: a text or a whole multiple. -/
def ofValue? : Value → Option OddsPolicy
  | .int i =>
    if 0 ≤ i.toInt ∧ i.toInt ≤ maxMultiple then some (uniform i.toInt.toNat) else none
  | .text s => ofText? s
  | _ => none

/-- The policy of an optional value; 3-4-5x where there is none. -/
def ofOption (v : Option Value) : OddsPolicy :=
  (v.bind ofValue?).getD threeFourFive

/-- The multiple on a point; zero for what is no point. -/
def multiple (policy : OddsPolicy) (point : Nat) : Int :=
  if isPoint point then
    match policy with
    | threeFourFive =>
      if point = 4 ∨ point = 10 then 3 else if point = 5 ∨ point = 9 then 4 else 5
    | uniform n => n
  else 0

/-- The text of a policy. -/
def display : OddsPolicy → String
  | threeFourFive => "3-4-5x"
  | uniform n => toString n ++ "x"

end OddsPolicy

/-- What a table asks of bets. -/
structure TableRules where
  /-- A machine that takes any whole dollar. -/
  bubble : Bool
  /-- The least bet in whole dollars. -/
  level : Int
  odds : OddsPolicy
deriving DecidableEq, Repr

end CrapsStrategy
