import CrapsStrategy.Proofs.Binary64.Finite

/-!
# `CrapsStrategy.Proofs.Binary64.Whole`: whole numbers among doubles

`IsInt x i` says that a double is finite and has the value of an
integer. It leaves the sign of zero open, so it goes through sums and
differences without a case for `-0`: as long as the exact result is at
most 2 ^ 53 in magnitude, nothing is rounded (`IsInt.add`,
`IsInt.sub`).

Beyond that bound an integer may lose its last places, but up to 64 bits
it stays finite and keeps its sign (`ofInt_positive`).
-/

set_option autoImplicit false

namespace CrapsStrategy

namespace Binary64

/-! ### Signs -/

/-- The numeral zero is the positive zero. -/
theorem zero_eq : (0 : Binary64) = zero false := by
  decide +kernel

/-- A finite double is more than zero exactly when its value is. -/
theorem less_zero_iff {x : Binary64} (h : x.isFinite = true) :
    less 0 x = true ↔ 0 < x.toRat := by
  cases x with
  | nan => cases h
  | infinite negative => cases h
  | finite negative significand exponent hcanonical =>
    have hzero : (zero false).toRat = 0 := by simp [zero, toRat]
    rw [zero_eq]
    show (some (compareRat (zero false).toRat _) == some .lt) = true ↔ _
    rw [hzero, compareRat]
    by_cases hpositive : 0 < (finite negative significand exponent hcanonical).toRat
    · simp [hpositive]
    · simp only [hpositive, if_false, iff_false]
      split <;> decide

/-- What is more than zero has no sign. -/
theorem isNegative_of_less_zero {x : Binary64} (h : less 0 x = true) : x.isNegative = false := by
  cases x with
  | nan => rfl
  | infinite negative =>
    cases negative with
    | false => rfl
    | true => exact absurd h (by decide +kernel)
  | finite negative significand exponent hcanonical =>
    have hpositive := (less_zero_iff rfl).1 h
    cases negative with
    | false => rfl
    | true =>
      have hmagnitude : (0 : Rat) ≤ significand * 2 ^ exponent := by positivity
      simp only [toRat, if_true, neg_mul] at hpositive
      linarith

/-- The 64-bit integer of a double stays in range. -/
theorem saturate_le_maxInt (x : Binary64) : x.saturate ≤ maxInt := by
  have hclamp : ∀ i, clamp i ≤ maxInt := by
    intro i
    unfold clamp minInt maxInt
    omega
  cases x with
  | nan => decide
  | infinite negative => cases negative <;> decide
  | finite negative significand exponent hcanonical => exact hclamp _

/-- A double without a sign has no negative 64-bit integer. -/
theorem saturate_nonneg {x : Binary64} (h : x.isNegative = false) : 0 ≤ x.saturate := by
  cases x with
  | nan => decide
  | infinite negative =>
    cases h
    decide
  | finite negative significand exponent hcanonical =>
    cases h
    have hvalue : 0 ≤ (finite false significand exponent hcanonical).toRat := by
      simp only [toRat, Bool.false_eq_true, if_false]
      positivity
    have htruncated : 0 ≤ truncateRat (finite false significand exponent hcanonical).toRat := by
      rw [truncateRat, if_neg (not_lt.2 hvalue)]
      exact Rat.le_floor_iff.2 (by exact_mod_cast hvalue)
    show 0 ≤ clamp _
    unfold clamp minInt maxInt
    omega

/-- Rounding a magnitude takes over the sign that is given with it, also
where it ends in a zero or in an infinity. -/
@[simp]
theorem isNegative_roundMagnitude (negative : Bool) (q : Rat) :
    (roundMagnitude negative q).isNegative = negative := by
  unfold roundMagnitude assemble
  dsimp only
  split
  · rfl
  · split <;> rfl

/-- Rounding to whole numbers keeps the sign. -/
@[simp]
theorem isNegative_roundAway (x : Binary64) : x.roundAway.isNegative = x.isNegative := by
  cases x with
  | nan => rfl
  | infinite negative => rfl
  | finite negative significand exponent hcanonical => exact isNegative_roundMagnitude _ _

/-- A positive 64-bit integer is rounded to a finite double that is
more than zero. -/
theorem ofInt_positive {i : Int} (hpositive : 0 < i) (hbound : i ≤ maxInt) :
    (ofInt i).isFinite = true ∧ less 0 (ofInt i) = true := by
  unfold maxInt at hbound
  obtain ⟨significand, exponent, hcanonical, hround, _, hfull⟩ :=
    ofInt_normal (show i ≠ 0 by omega) (by omega)
  rw [hround, decide_eq_false (by omega)]
  refine ⟨rfl, (less_zero_iff rfl).2 ?_⟩
  have hsignificand : (0 : Rat) < significand := by exact_mod_cast (by omega : 0 < significand)
  simp only [toRat, Bool.false_eq_true, if_false]
  positivity

/-! ### Integers as values -/

/-- A finite double with the value of an integer. -/
def IsInt (x : Binary64) (i : Int) : Prop :=
  x.isFinite = true ∧ x.toRat = i

/-- An integer of at most 53 bits is the value of the double that it is
converted to. -/
theorem isInt_ofInt {i : Int} (h : i.natAbs ≤ 9007199254740992) : IsInt (ofInt i) i := by
  obtain ⟨significand, exponent, hcanonical, hround, _⟩ := ofInt_eq_finite h
  refine ⟨?_, toRat_ofInt h⟩
  rw [hround]
  rfl

/-- Both zeros have the value zero. -/
theorem isInt_zero (negative : Bool) : IsInt (zero negative) 0 := by
  refine ⟨rfl, ?_⟩
  cases negative <;> simp [zero, toRat]

/-- The value of a double changes its sign with the double. -/
theorem IsInt.neg {x : Binary64} {i : Int} (h : IsInt x i) : IsInt x.neg (-i) := by
  obtain ⟨hfinite, hvalue⟩ := h
  cases x with
  | nan => cases hfinite
  | infinite negative => cases hfinite
  | finite negative significand exponent hcanonical =>
    refine ⟨rfl, ?_⟩
    rw [Int.cast_neg, ← hvalue]
    cases negative <;> simp [Binary64.neg, toRat]

/-- The sum of integers is exact up to 2 ^ 53. -/
theorem IsInt.add {x y : Binary64} {i j : Int} (hx : IsInt x i) (hy : IsInt y j)
    (h : (i + j).natAbs ≤ 9007199254740992) : IsInt (x.add y) (i + j) := by
  obtain ⟨hxfinite, hxvalue⟩ := hx
  obtain ⟨hyfinite, hyvalue⟩ := hy
  cases x with
  | nan => cases hxfinite
  | infinite negative => cases hxfinite
  | finite a m k hm =>
    cases y with
    | nan => cases hyfinite
    | infinite negative => cases hyfinite
    | finite b n l hn =>
      have hsum : (finite a m k hm).toRat + (finite b n l hn).toRat = ((i + j : Int) : Rat) := by
        rw [hxvalue, hyvalue, Int.cast_add]
      unfold Binary64.add
      dsimp only
      rw [hsum]
      by_cases hzero : i + j = 0
      · -- The sign of an exact zero is up to the operands.
        rw [if_pos (by rw [hzero]; rfl), hzero]
        exact isInt_zero _
      · rw [if_neg (by exact_mod_cast hzero)]
        exact isInt_ofInt h

/-- The difference of two integers is exact if it fits in 53 bits. It is
the sum with the negative of the other. -/
theorem IsInt.sub {x y : Binary64} {i j : Int} (hx : IsInt x i) (hy : IsInt y j)
    (h : (i - j).natAbs ≤ 9007199254740992) : IsInt (x.sub y) (i - j) :=
  hx.add hy.neg h

end Binary64

end CrapsStrategy
