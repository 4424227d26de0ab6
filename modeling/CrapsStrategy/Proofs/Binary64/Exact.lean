import CrapsStrategy.Binary64.Integral
import Mathlib.Algebra.Order.Field.Power
import Mathlib.Data.Rat.Floor

/-!
# `CrapsStrategy.Proofs.Binary64.Exact`: numbers that rounding keeps

Rounding is the identity on the values that doubles have
(`roundMagnitude_canonical`). The proof is about the exponent alone:
`floorLog2` is the binary logarithm (`floorLog2_bounds`), so
`lastPlace` finds the exponent that a canonical significand was
written with, and at this exponent the significand is an integer
already.

Every integer of at most 2 ^ 53 in magnitude is such a value
(`exists_canonical`). Amounts within this bound therefore survive as
doubles: `toRat_ofInt` says that the value is kept, and
`saturate_roundAway_ofInt` that rounding to whole dollars gives the
integer back.
-/

set_option autoImplicit false

namespace CrapsStrategy

namespace Binary64

/-! ### The binary logarithm -/

/-- The binary length of a natural number, as bounds of rationals. -/
theorem log2_bounds {n : Nat} (hn : n ≠ 0) :
    (2 : Rat) ^ (n.log2 : Int) ≤ n ∧ (n : Rat) < 2 ^ ((n.log2 : Int) + 1) := by
  constructor
  · exact_mod_cast Nat.log2_self_le hn
  · exact_mod_cast Nat.lt_log2_self

/-- A quotient lies within a factor of two of the quotient of the
powers below its parts. -/
theorem div_between_powers {a b : Rat} {i j : Int} (ha : 2 ^ i ≤ a ∧ a < 2 ^ (i + 1))
    (hb : 2 ^ j ≤ b ∧ b < 2 ^ (j + 1)) :
    2 ^ (i - j - 1) < a / b ∧ a / b < 2 ^ (i - j + 1) := by
  have hpos : ∀ k : Int, (0 : Rat) < 2 ^ k := fun k => zpow_pos two_pos k
  have hdivisor : 0 < b := (hpos j).trans_le hb.1
  constructor
  · rw [lt_div_iff₀ hdivisor]
    calc (2 : Rat) ^ (i - j - 1) * b
        < 2 ^ (i - j - 1) * 2 ^ (j + 1) := mul_lt_mul_of_pos_left hb.2 (hpos _)
      _ = 2 ^ i := by
          rw [← zpow_add₀ two_ne_zero]
          congr 1
          omega
      _ ≤ a := ha.1
  · rw [div_lt_iff₀ hdivisor]
    calc a < 2 ^ (i + 1) := ha.2
      _ = 2 ^ (i - j + 1) * 2 ^ j := by
          rw [← zpow_add₀ two_ne_zero]
          congr 1
          omega
      _ ≤ 2 ^ (i - j + 1) * b := mul_le_mul_of_nonneg_left hb.1 (hpos _).le

/-- The defining property of `floorLog2`. The estimate from the binary
lengths is at most one too great. -/
theorem floorLog2_bounds {q : Rat} (hq : 0 < q) :
    2 ^ floorLog2 q ≤ q ∧ q < 2 ^ (floorLog2 q + 1) := by
  have hnum : q.num.natAbs ≠ 0 := Int.natAbs_ne_zero.2 (Rat.num_pos.2 hq).ne'
  have hvalue : (q.num.natAbs : Rat) / q.den = q := by
    have hcast : (q.num.natAbs : Rat) = q.num := by
      rw [← Int.cast_natCast, Int.natAbs_of_nonneg (Rat.num_pos.2 hq).le]
    rw [hcast, Rat.num_div_den]
  obtain ⟨hlow, hhigh⟩ := div_between_powers (log2_bounds hnum) (log2_bounds q.den_nz)
  rw [hvalue] at hlow hhigh
  unfold floorLog2
  dsimp only
  split
  · rename_i hle
    exact ⟨hle, hhigh⟩
  · rename_i hgt
    rw [sub_add_cancel]
    exact ⟨hlow.le, not_le.1 hgt⟩

/-- Powers of two around a number determine its binary logarithm. -/
theorem floorLog2_eq {q : Rat} {k : Int} (hlow : 2 ^ k ≤ q) (hhigh : q < 2 ^ (k + 1)) :
    floorLog2 q = k := by
  obtain ⟨hle, hlt⟩ := floorLog2_bounds ((zpow_pos two_pos k).trans_le hlow)
  have hbelow : k < floorLog2 q + 1 :=
    (zpow_lt_zpow_iff_right₀ one_lt_two).1 (hlow.trans_lt hlt)
  have habove : floorLog2 q < k + 1 :=
    (zpow_lt_zpow_iff_right₀ one_lt_two).1 (hle.trans_lt hhigh)
  omega

/-! ### Values of doubles -/

/-- The last place of a canonical value is the exponent it is written
with. -/
theorem lastPlace_canonical {significand : Nat} {exponent : Int}
    (h : Canonical significand exponent) :
    lastPlace ((significand : Rat) * 2 ^ exponent) = exponent := by
  obtain ⟨hbits, hleast, _, hfull⟩ := h
  have hpos : (0 : Rat) < 2 ^ exponent := zpow_pos two_pos _
  have hhigh : (significand : Rat) * 2 ^ exponent < 2 ^ (exponent + 53) := by
    rw [zpow_add₀ two_ne_zero, mul_comm]
    refine mul_lt_mul_of_pos_left ?_ hpos
    exact_mod_cast hbits
  unfold lastPlace
  by_cases hzero : significand = 0
  · -- Zero is only canonical at the least exponent.
    rw [if_pos (by simp [hzero])]
    omega
  · have hvalue : (0 : Rat) < significand * 2 ^ exponent := by positivity
    rw [if_neg hvalue.ne']
    by_cases hlow : 4503599627370496 ≤ significand
    · have hlog : floorLog2 (significand * 2 ^ exponent) = exponent + 52 := by
        refine floorLog2_eq ?_ (by rwa [add_assoc])
        rw [zpow_add₀ two_ne_zero, mul_comm]
        refine mul_le_mul_of_nonneg_right ?_ hpos.le
        exact_mod_cast hlow
      rw [hlog]
      omega
    · -- A subnormal value lies below the last place that it is given.
      have hlog : floorLog2 (significand * 2 ^ exponent) < exponent + 53 :=
        (zpow_lt_zpow_iff_right₀ one_lt_two).1
          ((floorLog2_bounds hvalue).1.trans_lt hhigh)
      omega

/-- An integer is its own nearest integer. Its fraction is zero, so no
tie comes up. -/
@[simp]
theorem nearestEven_intCast (i : Int) : nearestEven i = i := by
  unfold nearestEven
  simp [Rat.floor_intCast]

/-- Rounding keeps the values that doubles have. -/
theorem roundMagnitude_canonical (negative : Bool) {significand : Nat} {exponent : Int}
    (h : Canonical significand exponent) :
    roundMagnitude negative ((significand : Rat) * 2 ^ exponent) =
      finite negative significand exponent h := by
  have hpos : (2 : Rat) ^ exponent ≠ 0 := (zpow_pos two_pos exponent).ne'
  have hsignificand : (nearestEven (significand : Rat)).toNat = significand := by
    have hint := nearestEven_intCast significand
    rw [Int.cast_natCast] at hint
    rw [hint, Int.toNat_natCast]
  unfold roundMagnitude
  dsimp only
  rw [lastPlace_canonical h, mul_div_cancel_right₀ _ hpos, hsignificand, assemble, dif_pos h]

/-! ### Integers -/

/-- An integer of at most 2 ^ 53 is the value of a double: all its
bits fit into a significand, moved up until all places are in use. -/
theorem exists_canonical {n : Nat} (h : n ≤ 9007199254740992) :
    ∃ (significand : Nat) (exponent : Int), Canonical significand exponent ∧
      (significand : Rat) * 2 ^ exponent = n := by
  rcases Nat.eq_zero_or_pos n with hzero | hpos
  · exact ⟨0, -1074, by decide, by simp [hzero]⟩
  rcases Nat.eq_or_lt_of_le h with hlast | hlt
  · -- The bound itself has one bit too many, but it is even.
    refine ⟨4503599627370496, 1, by decide, ?_⟩
    rw [hlast]
    norm_num
  have hlog : n.log2 ≤ 52 := by
    have hbits : n.log2 < 53 := (Nat.log2_lt hpos.ne').2 hlt
    omega
  have hlow : 2 ^ 52 ≤ n * 2 ^ (52 - n.log2) := by
    calc 2 ^ 52 = 2 ^ n.log2 * 2 ^ (52 - n.log2) := by rw [← pow_add, Nat.add_sub_cancel' hlog]
      _ ≤ n * 2 ^ (52 - n.log2) := Nat.mul_le_mul_right _ (Nat.log2_self_le hpos.ne')
  have hhigh : n * 2 ^ (52 - n.log2) < 2 ^ 53 := by
    calc n * 2 ^ (52 - n.log2) < 2 ^ (n.log2 + 1) * 2 ^ (52 - n.log2) :=
          Nat.mul_lt_mul_of_pos_right Nat.lt_log2_self (by positivity)
      _ = 2 ^ 53 := by
          rw [← pow_add]
          congr 1
          omega
  refine ⟨n * 2 ^ (52 - n.log2), -((52 - n.log2 : Nat) : Int), ⟨hhigh, ?_, ?_, .inl hlow⟩, ?_⟩
  · omega
  · omega
  · rw [zpow_neg, zpow_natCast, Nat.cast_mul, Nat.cast_pow, Nat.cast_ofNat]
    exact mul_inv_cancel_right₀ (by positivity) _

/-- The magnitude of an integer, by its sign. -/
theorem natAbs_cast (i : Int) : (i.natAbs : Rat) = if 0 ≤ i then (i : Rat) else -i := by
  rw [Nat.cast_natAbs]
  split
  · rename_i hnonneg
    rw [abs_of_nonneg hnonneg]
  · rename_i hneg
    rw [abs_of_neg (not_le.1 hneg), Int.cast_neg]

/-- An integer is rounded by its magnitude. -/
theorem ofInt_eq_roundMagnitude (i : Int) :
    ofInt i = roundMagnitude (decide (i < 0)) (i.natAbs : Rat) := by
  have hsign : decide ((i : Rat) < 0) = decide (i < 0) := by simp
  have hmagnitude : (i : Rat).abs = i.natAbs := by
    rw [natAbs_cast, Rat.abs]
    simp
  rw [ofInt, round, hsign, hmagnitude]

/-- Within 2 ^ 53 an integer is rounded to a double of its value. -/
theorem ofInt_eq_finite {i : Int} (h : i.natAbs ≤ 9007199254740992) :
    ∃ (significand : Nat) (exponent : Int) (hcanonical : Canonical significand exponent),
      ofInt i = finite (decide (i < 0)) significand exponent hcanonical ∧
      (significand : Rat) * 2 ^ exponent = i.natAbs := by
  obtain ⟨significand, exponent, hcanonical, hvalue⟩ := exists_canonical h
  refine ⟨significand, exponent, hcanonical, ?_, hvalue⟩
  rw [ofInt_eq_roundMagnitude, ← hvalue, roundMagnitude_canonical]

/-- A double keeps the value of such an integer. -/
theorem toRat_ofInt {i : Int} (h : i.natAbs ≤ 9007199254740992) : (ofInt i).toRat = i := by
  obtain ⟨significand, exponent, hcanonical, hround, hvalue⟩ := ofInt_eq_finite h
  rw [natAbs_cast] at hvalue
  rw [hround, toRat]
  by_cases hneg : i < 0
  · rw [if_neg (not_le.2 hneg)] at hvalue
    rw [if_pos (decide_eq_true hneg), neg_mul, hvalue, neg_neg]
  · rw [if_pos (not_lt.1 hneg)] at hvalue
    rw [if_neg (by simpa using hneg), hvalue]

/-- Rounding halves away from zero leaves an integer alone as well. -/
@[simp]
theorem nearestAway_intCast (i : Int) : nearestAway i = i := by
  have hhalf : ∀ j : Int, ((j : Rat) + 1 / 2).floor = j := by
    intro j
    rw [add_comm, Rat.floor_add_intCast]
    have hzero : ((1 : Rat) / 2).floor = 0 := by decide +kernel
    rw [hzero, zero_add]
  unfold nearestAway
  split
  · rw [← Int.cast_neg, hhalf, neg_neg]
  · exact hhalf i

/-- Cutting off the fraction of an integer, negative or not, gives the
integer. -/
@[simp]
theorem truncateRat_intCast (i : Int) : truncateRat i = i := by
  unfold truncateRat
  split
  · rw [← Int.cast_neg, Rat.floor_intCast, neg_neg]
  · exact Rat.floor_intCast i

/-- So the nearest whole number of such a double is the double. -/
theorem roundAway_ofInt {i : Int} (h : i.natAbs ≤ 9007199254740992) :
    (ofInt i).roundAway = ofInt i := by
  have hvalue := toRat_ofInt h
  obtain ⟨significand, exponent, hcanonical, hround, hmagnitude⟩ := ofInt_eq_finite h
  rw [hround] at hvalue ⊢
  rw [roundAway, mapRat, hvalue, nearestAway_intCast, ← hmagnitude, roundMagnitude_canonical]

/-- The 64-bit integer of such a double is the integer. -/
theorem saturate_ofInt {i : Int} (h : i.natAbs ≤ 9007199254740992) : (ofInt i).saturate = i := by
  have hvalue := toRat_ofInt h
  obtain ⟨significand, exponent, hcanonical, hround, _⟩ := ofInt_eq_finite h
  rw [hround] at hvalue ⊢
  show clamp (truncateRat (finite _ significand exponent hcanonical).toRat) = i
  rw [hvalue, truncateRat_intCast, clamp, minInt, maxInt]
  omega

end Binary64

end CrapsStrategy
