import CrapsStrategy.Binary64.Basic

/-!
# `CrapsStrategy.Binary64.Integral`: doubles and integers

The four ways to an integer (`floor`, `ceiling`, `truncate`,
`nearestEven`, and `nearestAway` for halves away from zero) are taken
on the exact value. `mapRat` brings the integer back as a double and
keeps the sign, so a small negative number rounds to `-0`.
`saturate` is the 64-bit integer an amount stands for: whole part,
clamped to the range, nothing for NaN.
-/

set_option autoImplicit false

namespace CrapsStrategy

namespace Binary64

/-- The whole part, toward zero. -/
def truncateRat (q : Rat) : Int :=
  if q < 0 then -(-q).floor else q.floor

/-- The nearest integer, halves away from zero. -/
def nearestAway (q : Rat) : Int :=
  if q < 0 then -(-q + 1 / 2).floor else (q + 1 / 2).floor

/-- A finite double made integral by `f`, under its own sign. -/
def mapRat (f : Rat → Int) : Binary64 → Binary64
  | finite negative significand exponent h =>
    roundMagnitude negative ((f (finite negative significand exponent h).toRat).natAbs : Rat)
  | x => x

def floor (x : Binary64) : Binary64 :=
  x.mapRat Rat.floor

def ceiling (x : Binary64) : Binary64 :=
  x.mapRat Rat.ceil

def truncate (x : Binary64) : Binary64 :=
  x.mapRat truncateRat

def roundEven (x : Binary64) : Binary64 :=
  x.mapRat nearestEven

def roundAway (x : Binary64) : Binary64 :=
  x.mapRat nearestAway

/-- The least and the greatest 64-bit integer. -/
def minInt : Int := -9223372036854775808

@[inherit_doc minInt]
def maxInt : Int := 9223372036854775807

/-- An integer brought into the 64-bit range. -/
def clamp (i : Int) : Int :=
  max minInt (min i maxInt)

/-- The 64-bit integer of a double: its whole part, clamped to the
range; zero for NaN. -/
def saturate : Binary64 → Int
  | nan => 0
  | infinite negative => if negative then minInt else maxInt
  | x => clamp (truncateRat x.toRat)

end Binary64

end CrapsStrategy
