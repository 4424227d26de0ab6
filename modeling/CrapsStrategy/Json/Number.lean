import CrapsStrategy.Binary64.Arithmetic
import CrapsStrategy.Json.Basic
import CrapsStrategy.Text.Integer

/-!
# `CrapsStrategy.Json.Number`: numbers in document text

A number is an optional minus sign, digits without a leading zero,
an optional fraction and an optional exponent. Without fraction and
exponent it is an integer when it fits 64 bits. Otherwise the leading
digits that fit 64 bits are its significand, which becomes a double
and is then scaled by one power of ten, itself a double. A number
past the range of doubles is malformed.
-/

set_option autoImplicit false

namespace CrapsStrategy.Json

/-- The parts of a number text. -/
structure NumberText where
  negative : Bool
  whole : List Char
  fraction : Option (List Char)
  exponent : Option (Bool × List Char)

/-- The greatest significand, the greatest 64-bit natural. -/
def maxSignificand : Nat := 18446744073709551615

/-- The significand so far, and the power of ten it is off by. -/
structure Significand where
  value : Nat
  power : Int
  full : Bool

/-- Appends a digit of the whole part; past the limit the digit only
counts. -/
def Significand.pushWhole (s : Significand) (c : Char) : Significand :=
  let value := 10 * s.value + Text.digitValue c
  if s.full || maxSignificand < value then { s with power := s.power + 1, full := true }
  else { s with value }

/-- Appends a digit of the fraction; past the limit it is dropped. -/
def Significand.pushFraction (s : Significand) (c : Char) : Significand :=
  let value := 10 * s.value + Text.digitValue c
  if s.full || maxSignificand < value then { s with full := true }
  else { s with value, power := s.power - 1 }

/-- The significand of a whole part. -/
def Significand.ofWhole (whole : List Char) : Significand :=
  whole.foldl pushWhole { value := 0, power := 0, full := false }

/-- Scales a double by a power of ten; none past the range. A power
below `10 ^ -308` is divided out in steps of that size. -/
def scale? (x : Binary64) (power : Int) : Option Binary64 :=
  if 0 ≤ power then
    if 308 < power then (if x.equal 0 then some x else none)
    else
      let scaled := x * .round (10 ^ power)
      if scaled.isInfinite then none else some scaled
  else if -308 ≤ power then some (x / .round (10 ^ (-power)))
  else if x.equal 0 then some x
  else scale? (x / .round (10 ^ (308 : Int))) (power + 308)
termination_by (-power).toNat
decreasing_by omega

/-- The double of a significand under a sign, scaled. -/
def ofSignificand? (negative : Bool) (value : Nat) (power : Int) : Option Binary64 :=
  (scale? (.ofNat value) power).map fun x => if negative then -x else x

/-- The power of ten of a written exponent, none past 32 bits. -/
def writtenExponent? (digits : List Char) : Option Int :=
  let n := Text.natOfDigits digits
  if n ≤ 2147483647 then some n else none

/-- The number of a number text; none past the range. -/
def NumberText.value? (t : NumberText) : Option Json :=
  let whole := Significand.ofWhole t.whole
  match t.fraction, t.exponent with
  | none, none =>
    if whole.full then (ofSignificand? t.negative whole.value whole.power).map .float
    else if t.negative = false then some (.int whole.value)
    -- A zero keeps its sign as a double.
    else if whole.value = 0 ∨ 9223372036854775808 < whole.value then
      some (.float (-(.ofNat whole.value)))
    else some (.int (-(whole.value : Int)))
  | fraction, exponent =>
    let s := (fraction.getD []).foldl Significand.pushFraction { whole with full := false }
    match exponent with
    | none => (ofSignificand? t.negative s.value s.power).map .float
    | some (below, digits) =>
      match writtenExponent? digits with
      | some power =>
        (ofSignificand? t.negative s.value (s.power + if below then -power else power)).map .float
      | none =>
        if s.value ≠ 0 ∧ below = false then none else some (.float (.zero t.negative))

end CrapsStrategy.Json
