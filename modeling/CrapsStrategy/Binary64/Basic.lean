/-!
# `CrapsStrategy.Binary64.Basic`: double precision numbers

A double is NaN, an infinity, or a finite value written with a sign,
a significand and a power of two in canonical form. Every finite
double has an exact rational value (`Binary64.toRat`), and every
rational has one nearest double (`Binary64.round`): the significand
is the nearest integer in units of the last place, ties to even.

Arithmetic elsewhere is always the exact rational result, rounded
once. Two doubles compare through their exact values, so `-0` and
`0` are equal and NaN is equal to nothing.
-/

set_option autoImplicit false

namespace CrapsStrategy

namespace Binary64

/-- A significand and exponent in the one form each finite double has:
at most 53 bits, an exponent in range, and all 53 bits in use unless
the exponent is the least. -/
def Canonical (significand : Nat) (exponent : Int) : Prop :=
  significand < 9007199254740992 ∧ -1074 ≤ exponent ∧ exponent ≤ 971 ∧
    (4503599627370496 ≤ significand ∨ exponent = -1074)

instance (significand : Nat) (exponent : Int) : Decidable (Canonical significand exponent) :=
  inferInstanceAs (Decidable (_ ∧ _ ∧ _ ∧ _))

end Binary64

/-- A double precision number. A finite one is
`± significand * 2 ^ exponent`. -/
inductive Binary64 where
  | nan
  | infinite (negative : Bool)
  | finite (negative : Bool) (significand : Nat) (exponent : Int)
      (canonical : Binary64.Canonical significand exponent)
deriving DecidableEq

namespace Binary64

/-- The zero of a sign. -/
def zero (negative : Bool) : Binary64 :=
  finite negative 0 (-1074) (by decide)

instance : Inhabited Binary64 := ⟨zero false⟩

/-- The exact value of a finite double; zero for the others. -/
def toRat : Binary64 → Rat
  | finite negative significand exponent _ =>
    (if negative then -(significand : Rat) else significand) * 2 ^ exponent
  | _ => 0

/-- The sign bit; NaN has none. -/
def isNegative : Binary64 → Bool
  | nan => false
  | infinite negative => negative
  | finite negative _ _ _ => negative

def isNaN : Binary64 → Bool
  | nan => true
  | _ => false

def isFinite : Binary64 → Bool
  | finite _ _ _ _ => true
  | _ => false

def isInfinite : Binary64 → Bool
  | infinite _ => true
  | _ => false

/-! ## Rounding a rational -/

/-- The integer nearest to a rational, the even one of two equally
near. -/
def nearestEven (q : Rat) : Int :=
  let below := q.floor
  let excess := q - below
  if excess < 1 / 2 then below
  else if 1 / 2 < excess then below + 1
  else below + below % 2

/-- The greatest `k` with `2 ^ k ≤ q`, for positive `q`. The binary
lengths of numerator and denominator give it up to one. -/
def floorLog2 (q : Rat) : Int :=
  let estimate : Int := (q.num.natAbs.log2 : Int) - q.den.log2
  if 2 ^ estimate ≤ q then estimate else estimate - 1

/-- The exponent of the last place of a double of magnitude `q`. -/
def lastPlace (q : Rat) : Int :=
  if q = 0 then -1074 else max (floorLog2 q - 52) (-1074)

/-- The double of a sign, a significand of at most 53 bits or the
first one beyond, and an exponent; an infinity past the greatest
double. -/
def assemble (negative : Bool) (significand : Nat) (exponent : Int) : Binary64 :=
  if h : Canonical significand exponent then
    finite negative significand exponent h
  else if h : significand = 9007199254740992 ∧
      Canonical 4503599627370496 (exponent + 1) then
    finite negative 4503599627370496 (exponent + 1) h.2
  else
    infinite negative

/-- The double nearest to a magnitude under a sign, ties to the even
significand. -/
def roundMagnitude (negative : Bool) (magnitude : Rat) : Binary64 :=
  let exponent := lastPlace magnitude
  assemble negative (nearestEven (magnitude / 2 ^ exponent)).toNat exponent

/-- The double nearest to a rational; zero rounds to positive zero. -/
def round (q : Rat) : Binary64 :=
  roundMagnitude (decide (q < 0)) q.abs

def ofInt (i : Int) : Binary64 :=
  round i

def ofNat (n : Nat) : Binary64 :=
  round n

instance (n : Nat) : OfNat Binary64 n := ⟨ofNat n⟩

/-! ## Comparison -/

/-- The order of two rationals. -/
def compareRat (p q : Rat) : Ordering :=
  if p < q then .lt else if q < p then .gt else .eq

/-- The order of two doubles by value; NaN is ordered with nothing. -/
def compare? : Binary64 → Binary64 → Option Ordering
  | nan, _ => none
  | _, nan => none
  | infinite true, infinite true => some .eq
  | infinite false, infinite false => some .eq
  | infinite true, _ => some .lt
  | infinite false, _ => some .gt
  | _, infinite true => some .gt
  | _, infinite false => some .lt
  | x, y => some (compareRat x.toRat y.toRat)

/-- Equality by value: the zeros are equal, NaN is not itself. -/
def equal (x y : Binary64) : Bool :=
  x.compare? y == some .eq

def less (x y : Binary64) : Bool :=
  x.compare? y == some .lt

def lessEqual (x y : Binary64) : Bool :=
  x.compare? y == some .lt || x.compare? y == some .eq

end Binary64

end CrapsStrategy
