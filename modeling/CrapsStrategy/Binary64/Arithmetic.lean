import CrapsStrategy.Binary64.Basic

/-!
# `CrapsStrategy.Binary64.Arithmetic`: operations on doubles

Each operation is the exact rational result, rounded once. The cases
without an exact result come first: NaN goes through, infinities
follow their signs, and a zero result takes the sign its rule gives.
The real power is the machine's own.
-/

set_option autoImplicit false

namespace CrapsStrategy

namespace Binary64

/-- The same magnitude under the other sign. -/
def neg : Binary64 → Binary64
  | nan => nan
  | infinite negative => infinite !negative
  | finite negative significand exponent h => finite (!negative) significand exponent h

/-- The same magnitude without its sign. -/
def abs : Binary64 → Binary64
  | nan => nan
  | infinite _ => infinite false
  | finite _ significand exponent h => finite false significand exponent h

/-- The sum. An exact sum of zero is `-0` only for two negative
operands. -/
def add : Binary64 → Binary64 → Binary64
  | nan, _ => nan
  | _, nan => nan
  | infinite a, infinite b => if a = b then infinite a else nan
  | infinite a, _ => infinite a
  | _, infinite b => infinite b
  | x, y =>
    let sum := x.toRat + y.toRat
    if sum = 0 then zero (x.isNegative && y.isNegative) else round sum

/-- The difference. -/
def sub (x y : Binary64) : Binary64 :=
  x.add y.neg

/-- The product; the sign is that of the operands' signs. -/
def mul : Binary64 → Binary64 → Binary64
  | nan, _ => nan
  | _, nan => nan
  | infinite a, infinite b => infinite (a ^^ b)
  | infinite a, y => if y.toRat = 0 then nan else infinite (a ^^ y.isNegative)
  | x, infinite b => if x.toRat = 0 then nan else infinite (x.isNegative ^^ b)
  | x, y => roundMagnitude (x.isNegative ^^ y.isNegative) (x.toRat * y.toRat).abs

/-- The quotient. Zero by zero and infinity by infinity are NaN; any
other division by zero is infinite. -/
def div : Binary64 → Binary64 → Binary64
  | nan, _ => nan
  | _, nan => nan
  | infinite _, infinite _ => nan
  | infinite a, y => infinite (a ^^ y.isNegative)
  | x, infinite b => zero (x.isNegative ^^ b)
  | x, y =>
    let negative := x.isNegative ^^ y.isNegative
    if y.toRat = 0 then
      if x.toRat = 0 then nan else infinite negative
    else
      roundMagnitude negative (x.toRat / y.toRat).abs

instance : Neg Binary64 := ⟨neg⟩
instance : Add Binary64 := ⟨add⟩
instance : Sub Binary64 := ⟨sub⟩
instance : Mul Binary64 := ⟨mul⟩
instance : Div Binary64 := ⟨div⟩

/-! ## Powers -/

/-- The pair of a running product and a running square after the
binary digits of `n`, least digit first. -/
def powNatLoop (product square : Binary64) (n : Nat) : Binary64 :=
  let product := if n % 2 = 1 then product * square else product
  if n / 2 = 0 then product else powNatLoop product (square * square) (n / 2)
termination_by n
decreasing_by omega

/-- The whole power by repeated squaring, each product rounded; a
negative exponent is the reciprocal of the positive power. -/
def powInt (x : Binary64) (n : Int) : Binary64 :=
  let power := powNatLoop 1 x n.natAbs
  if n < 0 then 1 / power else power

/-- The bit pattern of the interchange format. -/
def toBits : Binary64 → UInt64
  | nan => 0x7FF8000000000000
  | infinite negative => if negative then 0xFFF0000000000000 else 0x7FF0000000000000
  | finite negative significand exponent _ =>
    UInt64.ofNat ((if negative then 9223372036854775808 else 0) +
      (exponent + 1074).toNat * 4503599627370496 + significand)

/-- The double of a bit pattern. -/
def ofBits (bits : UInt64) : Binary64 :=
  let negative := decide (9223372036854775808 ≤ bits.toNat)
  let biased := bits.toNat / 4503599627370496 % 2048
  let fraction := bits.toNat % 4503599627370496
  if biased = 2047 then
    if fraction = 0 then infinite negative else nan
  else if biased = 0 then
    assemble negative fraction (-1074)
  else
    assemble negative (4503599627370496 + fraction) ((biased : Int) - 1075)

/-- The real power, as the machine computes it. -/
def pow (x y : Binary64) : Binary64 :=
  ofBits (Float.pow (Float.ofBits x.toBits) (Float.ofBits y.toBits)).toBits

end Binary64

end CrapsStrategy
