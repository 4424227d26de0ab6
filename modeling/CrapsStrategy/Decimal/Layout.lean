import CrapsStrategy.Binary64.Integral
import CrapsStrategy.Decimal.Shortest

/-!
# `CrapsStrategy.Decimal.Layout`: the text of a double

A double is written with the fewest digits that read back to it. A
`Layout` decides where the point goes: `plain` numbers, those of
values and messages, never take an exponent and drop a zero
fraction; `interchange` numbers, those of JSON text, keep the
fraction and take an exponent outside a middle range. `wholeText` is
the nearest whole number, as amounts are shown.
-/

set_option autoImplicit false

namespace CrapsStrategy

namespace Decimal

/-- How the digits of a number are laid out. -/
structure Layout where
  /-- The positions of the point, counted from the first digit,
  between which no exponent is written; none means everywhere. -/
  positional : Option (Int × Int)
  /-- Whether a whole number ends in `.0`. -/
  fraction : Bool

/-- Plain digits, as values and messages show numbers. -/
def Layout.plain : Layout :=
  { positional := none, fraction := false }

/-- The numbers of JSON text: an exponent below `10 ^ -5` and from
`10 ^ 16` on, and always a fraction otherwise. -/
def Layout.interchange : Layout :=
  { positional := some (-4, 16), fraction := true }

/-- The digits of a number before and after its point. -/
def Layout.positionalText (layout : Layout) (digits : List Char) (exponent : Int) : List Char :=
  let point := (digits.length : Int) + exponent
  if 0 ≤ exponent then
    digits ++ List.replicate exponent.toNat '0' ++ (if layout.fraction then ['.', '0'] else [])
  else if 0 < point then
    digits.take point.toNat ++ '.' :: digits.drop point.toNat
  else
    '0' :: '.' :: List.replicate (-point).toNat '0' ++ digits

/-- The digits of a number with one before the point, and the power
of ten with its sign. -/
def Layout.exponentText (digits : List Char) (exponent : Int) : List Char :=
  let power := (digits.length : Int) + exponent - 1
  let power := (if power < 0 then '-' else '+') :: (toString power.natAbs).toList
  match digits with
  | [digit] => digit :: 'e' :: power
  | digit :: rest => digit :: '.' :: rest ++ 'e' :: power
  | [] => []

/-- A decimal under a layout. -/
def Layout.text (layout : Layout) (d : Decimal) : List Char :=
  let digits := Nat.toDigits 10 d.digits
  let point := (digits.length : Int) + d.exponent
  match layout.positional with
  | none => layout.positionalText digits d.exponent
  | some (low, high) =>
    if d.digits = 0 ∨ (low ≤ point ∧ point ≤ high) then
      layout.positionalText digits d.exponent
    else
      Layout.exponentText digits d.exponent

end Decimal

namespace Binary64

/-- A double under a layout; the values that are not numbers have
names. -/
def textWith (layout : Decimal.Layout) : Binary64 → String
  | nan => "NaN"
  | infinite negative => if negative then "-inf" else "inf"
  | finite negative significand exponent _ =>
    String.ofList ((if negative then ['-'] else []) ++
      layout.text (Decimal.shortest significand exponent))

/-- The plain digits of a double. -/
def text (x : Binary64) : String :=
  x.textWith .plain

/-- All digits of the nearest whole number, the even one of two
equally near, with the sign kept. -/
def wholeText : Binary64 → String
  | finite negative significand exponent h =>
    let whole := nearestEven (finite negative significand exponent h).toRat
    (if negative then "-" else "") ++ toString whole.natAbs
  | x => x.text

end Binary64

end CrapsStrategy
