import CrapsStrategy.Binary64.Basic
import CrapsStrategy.Text.Integer
import CrapsStrategy.Text.Lowercase

/-!
# `CrapsStrategy.Decimal.Reader`: doubles from text

A number text is an optional sign, digits with an optional point,
and an optional exponent; a digit must stand on one side of the
point. The names `inf`, `infinity` and `nan` are read in any case.
The result is the double nearest to the written value: an infinity
past the range, zero below it.
-/

set_option autoImplicit false

namespace CrapsStrategy

namespace Decimal

/-- The double nearest to `digits * 10 ^ exponent`. Far outside the
range the answer is known from the number of digits alone. -/
def nearestDouble (negative : Bool) (digits : Nat) (exponent : Int) : Binary64 :=
  let top := (Nat.toDigits 10 digits).length + exponent
  if digits = 0 then .zero negative
  else if 400 < top then .infinite negative
  else if top < -400 then .zero negative
  else .roundMagnitude negative (digits * 10 ^ exponent)

/-- Splits a sign off; true is a minus sign. -/
def takeSign : List Char → Bool × List Char
  | '-' :: rest => (true, rest)
  | '+' :: rest => (false, rest)
  | cs => (false, cs)

/-- The exponent after the digits of a number; none if the text is
not one. -/
def exponent? : List Char → Option Int
  | [] => some 0
  | c :: rest =>
    if c = 'e' ∨ c = 'E' then
      let (negative, digits) := takeSign rest
      (Text.digits? digits).map fun n => if negative then -(n : Int) else n
    else none

/-- Digits with an optional point: the digits before and after it,
and the rest of the text. -/
def takeMantissa (cs : List Char) : List Char × List Char × List Char :=
  let whole := cs.takeWhile Text.isDigit
  match cs.dropWhile Text.isDigit with
  | '.' :: rest => (whole, rest.takeWhile Text.isDigit, rest.dropWhile Text.isDigit)
  | rest => (whole, [], rest)

/-- The double of an unsigned number text. -/
def unsigned? (negative : Bool) (cs : List Char) : Option Binary64 :=
  let (whole, fraction, rest) := takeMantissa cs
  if whole = [] ∧ fraction = [] then none
  else (exponent? rest).map fun exponent =>
    nearestDouble negative (Text.natOfDigits (whole ++ fraction)) (exponent - fraction.length)

end Decimal

namespace Binary64

/-- Reads a number text. -/
def read? (s : String) : Option Binary64 :=
  let (negative, cs) := Decimal.takeSign s.toList
  match Text.lowerAscii (String.ofList cs) with
  | "inf" | "infinity" => some (infinite negative)
  | "nan" => some nan
  | _ => Decimal.unsigned? negative cs

end Binary64

end CrapsStrategy
