import CrapsStrategy.Binary64.Arithmetic
import CrapsStrategy.Proofs.Binary64.Exact

/-!
# `CrapsStrategy.Proofs.Binary64.Finite`: results that stay finite

The greatest finite magnitude is `maxMagnitude`. Up to it rounding gives
a finite double (`roundMagnitude_finite`): it goes to one of the two
neighbouring integers in units of the last place (`nearestEven_mem`),
and these have at most 53 bits, or one bit more for the next exponent.
A magnitude in the normal range has all 53 bits in use.

So integers of 64 bits become finite doubles, and dividing by what is
not less than one does not leave the range.
-/

set_option autoImplicit false

namespace CrapsStrategy

namespace Binary64

/-- The greatest magnitude of a finite double. -/
def maxMagnitude : Rat :=
  (9007199254740991 : Int) * 2 ^ (971 : Int)

/-! ### The last place -/

/-- The nearest integer lies between any two integers around. -/
theorem nearestEven_mem {q : Rat} {low high : Int} (hlow : (low : Rat) ≤ q)
    (hhigh : q ≤ high) : low ≤ nearestEven q ∧ nearestEven q ≤ high := by
  have hfloor : low ≤ q.floor := Rat.le_floor_iff.2 hlow
  have hbelow : (q.floor : Rat) ≤ q := Rat.floor_le q
  have hle : q.floor ≤ high := by exact_mod_cast hbelow.trans hhigh
  -- Rounding up needs an excess, so there is room above.
  have hroom : 1 / 2 ≤ q - q.floor → q.floor + 1 ≤ high := by
    intro hexcess
    have hlt : (q.floor : Rat) < high := by linarith
    exact_mod_cast hlt
  unfold nearestEven
  dsimp only
  split
  · exact ⟨hfloor, hle⟩
  · rename_i hhalf
    have habove := hroom (not_lt.1 hhalf)
    split
    · omega
    · omega

/-- No number is rounded to a place below the least one, that of the
subnormal doubles. -/
theorem least_le_lastPlace (q : Rat) : -1074 ≤ lastPlace q := by
  unfold lastPlace
  split
  · exact le_rfl
  · exact le_max_right _ _

/-- The place of a positive magnitude is 52 places below its first bit,
unless it is the least. -/
theorem lastPlace_eq {q : Rat} (hq : 0 < q) : lastPlace q = max (floorLog2 q - 52) (-1074) := by
  rw [lastPlace, if_neg hq.ne']

/-- In units of its last place a magnitude has at most 53 bits. -/
theorem div_lastPlace_le {q : Rat} (hq : 0 ≤ q) :
    q / 2 ^ lastPlace q ≤ ((9007199254740992 : Int) : Rat) := by
  have hpos : (0 : Rat) < 2 ^ lastPlace q := zpow_pos two_pos _
  rw [div_le_iff₀ hpos]
  rcases hq.eq_or_lt with rfl | hq
  · positivity
  · calc q ≤ 2 ^ (floorLog2 q + 1) := (floorLog2_bounds hq).2.le
      _ ≤ 2 ^ (53 + lastPlace q) := by
          refine zpow_le_zpow_right₀ one_le_two ?_
          rw [lastPlace_eq hq]
          omega
      _ = ((9007199254740992 : Int) : Rat) * 2 ^ lastPlace q := by
          rw [zpow_add₀ two_ne_zero]
          norm_num

/-- All of them are in use in the normal range. -/
theorem le_div_lastPlace {q : Rat} (hnormal : 2 ^ (-1022 : Int) ≤ q) :
    ((4503599627370496 : Int) : Rat) ≤ q / 2 ^ lastPlace q := by
  have hpos : ∀ k : Int, (0 : Rat) < 2 ^ k := fun k => zpow_pos two_pos k
  have hq : 0 < q := (hpos _).trans_le hnormal
  obtain ⟨hle, hlt⟩ := floorLog2_bounds hq
  have hleast : -1022 < floorLog2 q + 1 :=
    (zpow_lt_zpow_iff_right₀ one_lt_two).1 (hnormal.trans_lt hlt)
  rw [le_div_iff₀ (hpos _)]
  calc ((4503599627370496 : Int) : Rat) * 2 ^ lastPlace q
      = 2 ^ (52 + lastPlace q) := by
        rw [zpow_add₀ two_ne_zero]
        norm_num
    _ ≤ 2 ^ floorLog2 q := by
        refine zpow_le_zpow_right₀ one_le_two ?_
        rw [lastPlace_eq hq]
        omega
    _ ≤ q := hle

/-- Above the least place every magnitude is in the normal range. -/
theorem normal_of_lastPlace {q : Rat} (hq : 0 < q) (hplace : lastPlace q ≠ -1074) :
    2 ^ (-1022 : Int) ≤ q := by
  rw [lastPlace_eq hq] at hplace
  exact (zpow_le_zpow_right₀ one_le_two (by omega)).trans (floorLog2_bounds hq).1

/-- A number within the finite range is rounded at the greatest place or
below it, so the double that it is rounded to has an exponent that fits. -/
theorem lastPlace_le {q : Rat} (hq : 0 < q) (hmax : q ≤ maxMagnitude) : lastPlace q ≤ 971 := by
  have hlt : floorLog2 q < 1024 := by
    refine (zpow_lt_zpow_iff_right₀ (one_lt_two : (1 : Rat) < 2)).1 ?_
    calc (2 : Rat) ^ floorLog2 q ≤ q := (floorLog2_bounds hq).1
      _ ≤ maxMagnitude := hmax
      _ < 2 ^ (53 : Int) * 2 ^ (971 : Int) := by
          refine mul_lt_mul_of_pos_right ?_ (zpow_pos two_pos _)
          norm_num
      _ = 2 ^ (1024 : Int) := by
          rw [← zpow_add₀ two_ne_zero]
          rfl
  rw [lastPlace_eq hq]
  omega

/-! ### Rounding -/

/-- The value a magnitude is rounded to: the nearest integer in units of
the last place. -/
def rounded (q : Rat) : Rat :=
  nearestEven (q / 2 ^ lastPlace q) * 2 ^ lastPlace q

/-- A magnitude up to the greatest is rounded to a finite double, whose
exponent is not below the last place. In the normal range it has all
bits in use. -/
theorem roundMagnitude_finite (negative : Bool) {q : Rat} (hq : 0 < q) (hmax : q ≤ maxMagnitude) :
    ∃ (significand : Nat) (exponent : Int) (h : Canonical significand exponent),
      roundMagnitude negative q = finite negative significand exponent h ∧
        (significand : Rat) * 2 ^ exponent = rounded q ∧
        lastPlace q ≤ exponent ∧
        (2 ^ (-1022 : Int) ≤ q → 4503599627370496 ≤ significand) := by
  have hleast := least_le_lastPlace q
  have hplace := lastPlace_le hq hmax
  have hzero : ((0 : Int) : Rat) ≤ q / 2 ^ lastPlace q := by
    have hpos : (0 : Rat) < 2 ^ lastPlace q := zpow_pos two_pos _
    rw [Int.cast_zero]
    positivity
  obtain ⟨hnonneg, hbits⟩ := nearestEven_mem hzero (div_lastPlace_le hq.le)
  have hfull : 2 ^ (-1022 : Int) ≤ q → 4503599627370496 ≤ nearestEven (q / 2 ^ lastPlace q) :=
    fun hnormal => (nearestEven_mem (le_div_lastPlace hnormal) (div_lastPlace_le hq.le)).1
  -- In the greatest place there is no room for one bit more.
  have hroom : lastPlace q = 971 → nearestEven (q / 2 ^ lastPlace q) ≤ 9007199254740991 := by
    intro hgreatest
    refine (nearestEven_mem hzero ?_).2
    rw [hgreatest, div_le_iff₀ (zpow_pos two_pos _)]
    exact hmax
  have hnormal : lastPlace q ≠ -1074 → 2 ^ (-1022 : Int) ≤ q := normal_of_lastPlace hq
  unfold roundMagnitude rounded
  dsimp only
  generalize nearestEven (q / 2 ^ lastPlace q) = nearest at hnonneg hbits hfull hroom ⊢
  have hcast : (nearest.toNat : Rat) = nearest := by exact_mod_cast Int.toNat_of_nonneg hnonneg
  by_cases hcanonical : Canonical nearest.toNat (lastPlace q)
  · rw [assemble, dif_pos hcanonical]
    refine ⟨nearest.toNat, lastPlace q, hcanonical, rfl, by rw [hcast], le_rfl, fun hq => ?_⟩
    have hleast := hfull hq
    omega
  · -- Only a carry into one bit more is not canonical.
    have hcarry : nearest = 9007199254740992 := by
      by_cases hbottom : lastPlace q = -1074
      · unfold Canonical at hcanonical
        omega
      · have hleast := hfull (hnormal hbottom)
        unfold Canonical at hcanonical
        omega
    have hnext : Canonical 4503599627370496 (lastPlace q + 1) :=
      ⟨by decide, by omega, by omega, .inl (by decide)⟩
    have hvalue : ((4503599627370496 : Nat) : Rat) * 2 ^ (lastPlace q + 1) =
        nearest * 2 ^ lastPlace q := by
      rw [hcarry, zpow_add_one₀ two_ne_zero]
      push_cast
      ring
    rw [assemble, dif_neg hcanonical, dif_pos ⟨by rw [hcarry]; rfl, hnext⟩]
    exact ⟨4503599627370496, lastPlace q + 1, hnext, rfl, hvalue, by omega, fun _ => le_rfl⟩

/-- A number within the finite range is rounded to a finite double. The
significand may reach the next power of two, and even then the exponent
fits (`roundMagnitude_finite`). -/
theorem isFinite_roundMagnitude (negative : Bool) {q : Rat} (hq : 0 ≤ q)
    (hmax : q ≤ maxMagnitude) : (roundMagnitude negative q).isFinite = true := by
  rcases hq.eq_or_lt with rfl | hq
  · cases negative <;> decide +kernel
  · obtain ⟨significand, exponent, hcanonical, hround, _⟩ :=
      roundMagnitude_finite negative hq hmax
    rw [hround]
    rfl

/-- Rounding gives a number. -/
theorem isNaN_roundMagnitude (negative : Bool) (q : Rat) :
    (roundMagnitude negative q).isNaN = false := by
  unfold roundMagnitude assemble
  dsimp only
  split
  · rfl
  · split <;> rfl

/-- What is at least one is rounded to what is at least one. -/
theorem one_le_round {q : Rat} (hone : 1 ≤ q) (hmax : q ≤ maxMagnitude) :
    (round q).isFinite = true ∧ 1 ≤ (round q).toRat := by
  have hq : 0 < q := one_pos.trans_le hone
  have hnormal : (2 : Rat) ^ (-1022 : Int) ≤ q :=
    (zpow_le_one_of_nonpos₀ one_le_two (by decide)).trans hone
  have hround : round q = roundMagnitude false q := by
    rw [round, decide_eq_false (not_lt.2 hq.le), Rat.abs_of_nonneg hq.le]
  obtain ⟨significand, exponent, hcanonical, hfinite, _, hplace, hfull⟩ :=
    roundMagnitude_finite false hq hmax
  rw [hround, hfinite]
  refine ⟨rfl, ?_⟩
  -- From one up the last place is worth at least 2 ^ -52, and a normal
  -- significand counts at least 2 ^ 52 of them.
  have hlog : 0 < floorLog2 q + 1 :=
    (zpow_lt_zpow_iff_right₀ (one_lt_two : (1 : Rat) < 2)).1
      (by simpa using hone.trans_lt (floorLog2_bounds hq).2)
  have hexponent : -52 ≤ exponent := by
    rw [lastPlace_eq hq] at hplace
    omega
  have hsignificand : (2 : Rat) ^ (52 : Int) ≤ significand := by
    have hcast : ((4503599627370496 : Nat) : Rat) ≤ significand := by exact_mod_cast hfull hnormal
    exact le_trans (by norm_num) hcast
  simp only [toRat, Bool.false_eq_true, if_false]
  calc (1 : Rat) = 2 ^ (52 : Int) * 2 ^ (-52 : Int) := by norm_num
    _ ≤ significand * 2 ^ exponent := by
        refine mul_le_mul hsignificand ?_ (zpow_pos two_pos _).le (Nat.cast_nonneg _)
        exact zpow_le_zpow_right₀ one_le_two hexponent

/-- An integer of 64 bits but zero is rounded to a finite double that has
all bits in use. -/
theorem ofInt_normal {i : Int} (hzero : i ≠ 0) (hbound : i.natAbs < 18446744073709551616) :
    ∃ (significand : Nat) (exponent : Int) (h : Canonical significand exponent),
      ofInt i = finite (decide (i < 0)) significand exponent h ∧
        (significand : Rat) * 2 ^ exponent = rounded i.natAbs ∧
        4503599627370496 ≤ significand := by
  have hone : (1 : Rat) ≤ i.natAbs := by exact_mod_cast Int.natAbs_pos.2 hzero
  have hnormal : (2 : Rat) ^ (-1022 : Int) ≤ i.natAbs :=
    (zpow_le_one_of_nonpos₀ one_le_two (by decide)).trans hone
  have hmax : (i.natAbs : Rat) ≤ maxMagnitude := by
    have hcast : (i.natAbs : Rat) < 18446744073709551616 := by exact_mod_cast hbound
    calc (i.natAbs : Rat) ≤ 2 ^ (64 : Int) := hcast.le.trans (by norm_num)
      _ ≤ 2 ^ (971 : Int) := zpow_le_zpow_right₀ one_le_two (by decide)
      _ ≤ maxMagnitude := le_mul_of_one_le_left (zpow_pos two_pos _).le (by norm_num)
  rw [ofInt_eq_roundMagnitude]
  obtain ⟨significand, exponent, hcanonical, hround, hvalue, _, hfull⟩ :=
    roundMagnitude_finite (decide (i < 0)) (one_pos.trans_le hone) hmax
  exact ⟨significand, exponent, hcanonical, hround, hvalue, hfull hnormal⟩

/-- So every integer of 64 bits is rounded to a finite double. -/
theorem isFinite_ofInt {i : Int} (hbound : i.natAbs < 18446744073709551616) :
    (ofInt i).isFinite = true := by
  by_cases hzero : i = 0
  · subst hzero
    decide +kernel
  · obtain ⟨significand, exponent, hcanonical, hround, _⟩ := ofInt_normal hzero hbound
    rw [hround]
    rfl

/-! ### Comparison -/

/-- Finite doubles compare as their values do. -/
theorem compare?_of_isFinite {x y : Binary64} (hx : x.isFinite = true) (hy : y.isFinite = true) :
    x.compare? y = some (compareRat x.toRat y.toRat) := by
  cases x with
  | nan | infinite negative => cases hx
  | finite _ _ _ _ =>
    cases y with
    | nan | infinite negative => cases hy
    | finite _ _ _ _ => rfl

/-! ### Products and quotients -/

/-- The absolute value that the operations use is that of the order,
about which the library has its lemmas. -/
theorem rat_abs_eq (q : Rat) : q.abs = |q| := by
  rcases le_total 0 q with h | h
  · rw [Rat.abs_of_nonneg h, abs_of_nonneg h]
  · rw [Rat.abs_of_nonpos h, abs_of_nonpos h]

/-- The sign of a finite double has no part in its absolute value. -/
theorem abs_toRat_finite (negative : Bool) {significand : Nat} {exponent : Int}
    (hcanonical : Canonical significand exponent) :
    |(finite negative significand exponent hcanonical).toRat| = significand * 2 ^ exponent := by
  have hpos : (0 : Rat) < 2 ^ exponent := zpow_pos two_pos _
  rw [toRat, abs_mul, abs_of_pos hpos]
  cases negative <;> simp

/-- No double has a greater magnitude. -/
theorem abs_toRat_le (x : Binary64) : |x.toRat| ≤ maxMagnitude := by
  have hpos : ∀ k : Int, (0 : Rat) < 2 ^ k := fun k => zpow_pos two_pos k
  have hmax : 0 ≤ maxMagnitude := mul_nonneg (by norm_num) (hpos _).le
  cases x with
  | nan | infinite negative => simpa [toRat] using hmax
  | finite negative significand exponent hcanonical =>
    have hbits : (significand : Rat) ≤ (9007199254740991 : Int) := by
      have hle : significand ≤ 9007199254740991 := Nat.le_of_lt_succ hcanonical.1
      exact_mod_cast hle
    rw [abs_toRat_finite]
    exact mul_le_mul hbits (zpow_le_zpow_right₀ one_le_two hcanonical.2.2.1) (hpos _).le
      (by norm_num)

/-- A change of sign keeps a double finite. -/
theorem isFinite_neg {x : Binary64} (h : x.isFinite = true) : (-x).isFinite = true := by
  cases x with
  | finite _ _ _ _ => rfl
  | _ => cases h

/-- What is a number and not infinite is finite. -/
theorem isFinite_of_isNaN {x : Binary64} (hnan : x.isNaN = false) (h : x.isInfinite = false) :
    x.isFinite = true := by
  cases x with
  | nan => cases hnan
  | infinite negative => cases h
  | finite _ _ _ _ => rfl

/-- A product of finite doubles is finite unless it is infinite. -/
theorem isFinite_mul {x y : Binary64} (hx : x.isFinite = true) (hy : y.isFinite = true)
    (h : (x * y).isInfinite = false) : (x * y).isFinite = true := by
  cases x with
  | nan | infinite negative => cases hx
  | finite _ _ _ _ =>
    cases y with
    | nan | infinite negative => cases hy
    | finite _ _ _ _ => exact isFinite_of_isNaN (isNaN_roundMagnitude _ _) h

/-- Dividing by what is at least one stays in the range. -/
theorem isFinite_div {x y : Binary64} (hx : x.isFinite = true) (hy : y.isFinite = true)
    (hone : 1 ≤ y.toRat) : (x / y).isFinite = true := by
  have hbound : (x.toRat / y.toRat).abs ≤ maxMagnitude := by
    rw [rat_abs_eq, abs_div, abs_of_pos (one_pos.trans_le hone)]
    exact (div_le_self (abs_nonneg _) hone).trans (abs_toRat_le x)
  cases x with
  | nan | infinite negative => cases hx
  | finite a m k hm =>
    cases y with
    | nan | infinite negative => cases hy
    | finite b n l hn =>
      show (div (finite a m k hm) (finite b n l hn)).isFinite = true
      unfold div
      dsimp only
      rw [if_neg (one_pos.trans_le hone).ne']
      exact isFinite_roundMagnitude _ Rat.abs_nonneg hbound

end Binary64

end CrapsStrategy
