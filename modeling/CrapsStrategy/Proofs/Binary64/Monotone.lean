import CrapsStrategy.Proofs.Binary64.Finite
import Mathlib.Tactic.Linarith

/-!
# `CrapsStrategy.Proofs.Binary64.Monotone`: rounding keeps the order

Of two magnitudes the greater is not rounded below the other
(`rounded_mono`). In one last place this is so of the nearest integers
(`nearestEven_mono`). Otherwise the greater magnitude has the higher
place and all its bits in use, and the least such value is what the
other can be rounded up to at most.

So integers of 64 bits keep their order as doubles (`toRat_ofInt_mono`),
but two of them may become equal. That takes more than 53 bits: below
2 ^ 53 an integer is exact, and so are the two next to it, which keep
all others apart from it (`eq_of_toRat_ofInt_eq`).
-/

set_option autoImplicit false

namespace CrapsStrategy

namespace Binary64

/-! ### Magnitudes -/

section Magnitudes

variable {p q : Rat}

/-- Rounding to the nearest integer keeps the order, ties included. -/
theorem nearestEven_mono (h : p ≤ q) : nearestEven p ≤ nearestEven q := by
  rcases (Rat.floor_monotone h).lt_or_eq with hlt | heq
  · have habove : p ≤ ((p.floor + 1 : Int) : Rat) := by exact_mod_cast (Rat.lt_floor_add_one p).le
    calc nearestEven p ≤ p.floor + 1 := (nearestEven_mem (Rat.floor_le p) habove).2
      _ ≤ q.floor := hlt
      _ ≤ nearestEven q := (nearestEven_mem (Rat.floor_le q) Rat.le_ceil).1
  · -- Above one floor the excess decides.
    unfold nearestEven
    dsimp only
    rw [heq]
    have hexcess : p - q.floor ≤ q - q.floor := sub_le_sub_right h _
    split_ifs <;> first | omega | linarith

/-- A greater number has the same binary logarithm or a greater one. -/
theorem floorLog2_mono (hp : 0 < p) (h : p ≤ q) : floorLog2 p ≤ floorLog2 q := by
  have hlt : floorLog2 p < floorLog2 q + 1 := by
    refine (zpow_lt_zpow_iff_right₀ (one_lt_two : (1 : Rat) < 2)).1 ?_
    calc (2 : Rat) ^ floorLog2 p ≤ p := (floorLog2_bounds hp).1
      _ ≤ q := h
      _ < 2 ^ (floorLog2 q + 1) := (floorLog2_bounds (hp.trans_le h)).2
  omega

/-- A greater number is rounded at the same place or at a coarser one. -/
theorem lastPlace_mono (hp : 0 < p) (h : p ≤ q) : lastPlace p ≤ lastPlace q := by
  have hlog := floorLog2_mono hp h
  rw [lastPlace_eq hp, lastPlace_eq (hp.trans_le h)]
  omega

/-- Zero is a double, so it is rounded to itself. -/
@[simp]
theorem rounded_zero : rounded 0 = 0 := by
  have hnearest := nearestEven_intCast 0
  rw [Int.cast_zero] at hnearest
  rw [rounded, zero_div, hnearest, Int.cast_zero, zero_mul]

/-- Rounding does not take a number below zero. It is `rounded_mono` at
zero. -/
theorem rounded_nonneg (hp : 0 ≤ p) : 0 ≤ rounded p := by
  have hpos : (0 : Rat) < 2 ^ lastPlace p := zpow_pos two_pos _
  have hnearest := nearestEven_mono (div_nonneg hp hpos.le)
  rw [← Int.cast_zero, nearestEven_intCast] at hnearest
  exact mul_nonneg (by exact_mod_cast hnearest) hpos.le

/-- A magnitude is not rounded above a greater one. -/
theorem rounded_mono (hp : 0 ≤ p) (h : p ≤ q) : rounded p ≤ rounded q := by
  have hpos : ∀ k : Int, (0 : Rat) < 2 ^ k := fun k => zpow_pos two_pos k
  rcases hp.eq_or_lt with rfl | hp
  · rw [rounded_zero]
    exact rounded_nonneg h
  unfold rounded
  rcases (lastPlace_mono hp h).lt_or_eq with hlt | heq
  · -- A carry of the lower place ends where the higher place begins.
    have hleast := least_le_lastPlace p
    have hnormal : 2 ^ (-1022 : Int) ≤ q := normal_of_lastPlace (hp.trans_le h) (by omega)
    have hbits := nearestEven_mono (div_lastPlace_le hp.le)
    have hfull := nearestEven_mono (le_div_lastPlace hnormal)
    rw [nearestEven_intCast] at hbits hfull
    calc (nearestEven (p / 2 ^ lastPlace p) : Rat) * 2 ^ lastPlace p
        ≤ (9007199254740992 : Int) * 2 ^ lastPlace p :=
          mul_le_mul_of_nonneg_right (by exact_mod_cast hbits) (hpos _).le
      _ = (4503599627370496 : Int) * 2 ^ (lastPlace p + 1) := by
          rw [zpow_add_one₀ two_ne_zero]
          push_cast
          ring
      _ ≤ (4503599627370496 : Int) * 2 ^ lastPlace q := by
          refine mul_le_mul_of_nonneg_left ?_ (by norm_num)
          exact zpow_le_zpow_right₀ one_le_two (by omega)
      _ ≤ nearestEven (q / 2 ^ lastPlace q) * 2 ^ lastPlace q :=
          mul_le_mul_of_nonneg_right (by exact_mod_cast hfull) (hpos _).le
  · rw [heq]
    refine mul_le_mul_of_nonneg_right ?_ (hpos _).le
    exact_mod_cast nearestEven_mono (div_le_div_of_nonneg_right h (hpos _).le)

end Magnitudes

/-! ### Integers -/

section Integers

variable {i j : Int} (hi : i.natAbs < 18446744073709551616) (hj : j.natAbs < 18446744073709551616)

include hi

/-- The value of an integer as a double, by its sign. -/
theorem toRat_ofInt_eq :
    (ofInt i).toRat = if i < 0 then -rounded i.natAbs else rounded i.natAbs := by
  by_cases hzero : i = 0
  · subst hzero
    rw [toRat_ofInt (by decide)]
    simp
  · obtain ⟨significand, exponent, hcanonical, hround, hvalue, _⟩ := ofInt_normal hzero hi
    rw [hround, toRat, ← hvalue]
    by_cases hneg : i < 0
    · simp [hneg]
    · simp [hneg]

/-- A double of an integer is what its value is rounded to. -/
theorem round_toRat_ofInt : round (ofInt i).toRat = ofInt i := by
  by_cases hzero : i = 0
  · subst hzero
    decide +kernel
  · obtain ⟨significand, exponent, hcanonical, hround, _, hfull⟩ := ofInt_normal hzero hi
    have hpos : (0 : Rat) < significand * 2 ^ exponent := by
      have hsignificand : (0 : Rat) < significand := by
        exact_mod_cast (by omega : 0 < significand)
      positivity
    rw [hround, toRat, round]
    by_cases hneg : i < 0
    · rw [if_pos (decide_eq_true hneg), neg_mul, decide_eq_true (neg_neg_of_pos hpos),
        Rat.abs_of_nonpos (neg_neg_of_pos hpos).le, neg_neg, roundMagnitude_canonical,
        decide_eq_true hneg]
    · rw [if_neg (by simpa using hneg), decide_eq_false (not_lt.2 hpos.le),
        Rat.abs_of_nonneg hpos.le, roundMagnitude_canonical, decide_eq_false hneg]

include hj

/-- So such doubles are told apart by their values. -/
theorem toRat_ofInt_inj : (ofInt i).toRat = (ofInt j).toRat ↔ ofInt i = ofInt j := by
  refine ⟨fun h => ?_, congrArg toRat⟩
  rw [← round_toRat_ofInt hi, h, round_toRat_ofInt hj]

/-- Integers keep their order. -/
theorem toRat_ofInt_mono (h : i ≤ j) : (ofInt i).toRat ≤ (ofInt j).toRat := by
  have hcast : ∀ {m n : Nat}, m ≤ n → rounded m ≤ rounded n := fun hmn =>
    rounded_mono (Nat.cast_nonneg _) (by exact_mod_cast hmn)
  rw [toRat_ofInt_eq hi, toRat_ofInt_eq hj]
  -- Magnitudes below zero are in the opposite order.
  by_cases hpositive : 0 ≤ i
  · rw [if_neg (by omega), if_neg (by omega)]
    exact hcast (by omega)
  rw [if_pos (by omega)]
  by_cases hnegative : j < 0
  · rw [if_pos hnegative]
    exact neg_le_neg (hcast (by omega))
  · rw [if_neg hnegative]
    have hleft := rounded_nonneg (Nat.cast_nonneg i.natAbs)
    have hright := rounded_nonneg (Nat.cast_nonneg j.natAbs)
    linarith

omit hi in
/-- Below 2 ^ 53 an integer has a double of its own. -/
theorem eq_of_toRat_ofInt_eq (hsmall : i.natAbs < 9007199254740992)
    (h : (ofInt i).toRat = (ofInt j).toRat) : i = j := by
  -- The neighbours of the integer are exact, and the other one lies beyond.
  rcases lt_trichotomy i j with hless | heq | hgreater
  · have hnext := toRat_ofInt_mono (i := i + 1) (by omega) hj hless
    rw [← h, toRat_ofInt (by omega), toRat_ofInt (by omega)] at hnext
    push_cast at hnext
    linarith
  · exact heq
  · have hprevious := toRat_ofInt_mono (j := i - 1) hj (by omega) (by omega)
    rw [← h, toRat_ofInt (by omega), toRat_ofInt (by omega)] at hprevious
    push_cast at hprevious
    linarith

end Integers

end Binary64

end CrapsStrategy
