import CrapsStrategy.Proofs.Binary64.Monotone
import CrapsStrategy.Proofs.Binary64.Whole

/-!
# `CrapsStrategy.Proofs.Binary64.Rounding`: doubles made whole

Floor, ceiling, truncation and the nearest integer keep the order and
the integers (`IsRounding`). No more is needed to know what becomes of a
double. From 2 ^ 52 on it has no place for a fraction and stays as it is
(`IsRounding.mapRat_eq_self`); below, the result is an integer that a
double holds exactly. So `mapRat` never rounds a second time
(`IsRounding.isInt_mapRat`).

Which integer each of the four picks is said by inequalities alone.
-/

set_option autoImplicit false

namespace CrapsStrategy

namespace Binary64

/-- A choice of an integer for each rational that keeps the order and
the integers. -/
structure IsRounding (pick : Rat → Int) : Prop where
  mono : ∀ {p q : Rat}, p ≤ q → pick p ≤ pick q
  intCast : ∀ i : Int, pick i = i

/-! ### The four roundings -/

/-- Rounding down is a rounding. -/
theorem isRounding_floor : IsRounding Rat.floor :=
  ⟨Rat.floor_monotone, Rat.floor_intCast⟩

/-- Rounding up is a rounding. -/
theorem isRounding_ceil : IsRounding Rat.ceil :=
  ⟨fun h => Rat.ceil_le_iff.2 (h.trans Rat.le_ceil), Rat.ceil_intCast⟩

/-- Cutting off fractions keeps the order. On either side of zero it is
one of the two roundings above, and across zero the signs decide. -/
theorem truncateRat_mono {p q : Rat} (h : p ≤ q) : truncateRat p ≤ truncateRat q := by
  have hfloor : ∀ {r : Rat}, 0 ≤ r → 0 ≤ r.floor := fun hr =>
    Rat.le_floor_iff.2 (by exact_mod_cast hr)
  unfold truncateRat
  split
  · rename_i hp
    split
    · exact Int.neg_le_neg (Rat.floor_monotone (Rat.neg_le_neg h))
    · -- Zero lies between the two.
      rename_i hq
      have hbelow := hfloor (neg_nonneg.2 hp.le)
      have habove := hfloor (not_lt.1 hq)
      omega
  · rename_i hp
    rw [if_neg fun hq => hp (lt_of_le_of_lt h hq)]
    exact Rat.floor_monotone h

/-- Cutting off the fraction is a rounding. -/
theorem isRounding_truncate : IsRounding truncateRat :=
  ⟨truncateRat_mono, truncateRat_intCast⟩

/-- Rounding to the nearest integer is a rounding. -/
theorem isRounding_nearestEven : IsRounding nearestEven :=
  ⟨nearestEven_mono, nearestEven_intCast⟩

/-- No rounding leaves an interval around zero whose ends are integers,
as it keeps those and the order. -/
theorem IsRounding.natAbs_le {pick : Rat → Int} (hpick : IsRounding pick) {q : Rat} {bound : Nat}
    (h : |q| ≤ bound) : (pick q).natAbs ≤ bound := by
  obtain ⟨hlow, hhigh⟩ := abs_le.1 h
  have hleast : pick ((-bound : Int) : Rat) ≤ pick q := hpick.mono (by exact_mod_cast hlow)
  have hgreatest : pick q ≤ pick ((bound : Int) : Rat) := hpick.mono (by exact_mod_cast hhigh)
  rw [hpick.intCast] at hleast hgreatest
  omega

/-! ### What each of them gives -/

section Values

variable {q : Rat} {i : Int}

/-- The floor is the integer at most one below the number. -/
theorem floor_eq_iff : q.floor = i ↔ (i : Rat) ≤ q ∧ q < i + 1 := by
  have hbelow : i ≤ q.floor ↔ (i : Rat) ≤ q := Rat.le_floor_iff
  have habove : q.floor < i + 1 ↔ q < ((i + 1 : Int) : Rat) := Rat.floor_lt_iff
  rw [Int.cast_add, Int.cast_one] at habove
  rw [← hbelow, ← habove]
  omega

/-- The ceiling is the integer less than one above the number, or the
number itself. -/
theorem ceil_eq_iff : q.ceil = i ↔ (i : Rat) - 1 < q ∧ q ≤ i := by
  have habove : q.ceil ≤ i ↔ q ≤ (i : Rat) := Rat.ceil_le_iff
  have hbelow : i - 1 < q.ceil ↔ ((i - 1 : Int) : Rat) < q := Rat.lt_ceil_iff
  rw [Int.cast_sub, Int.cast_one] at hbelow
  rw [← hbelow, ← habove]
  omega

/-- Toward zero is down from above and up from below. -/
theorem truncateRat_eq_iff : truncateRat q = i ↔
    (0 ≤ q → (i : Rat) ≤ q ∧ q < i + 1) ∧ (q ≤ 0 → (i : Rat) - 1 < q ∧ q ≤ i) := by
  rcases lt_trichotomy q 0 with hneg | rfl | hpos
  · rw [truncateRat, if_pos hneg, neg_eq_iff_eq_neg, floor_eq_iff, Int.cast_neg]
    constructor
    · rintro ⟨hlow, hhigh⟩
      exact ⟨fun h => absurd hneg (not_lt.2 h), fun _ => ⟨by linarith, by linarith⟩⟩
    · rintro ⟨_, h⟩
      obtain ⟨hlow, hhigh⟩ := h hneg.le
      exact ⟨by linarith, by linarith⟩
  · have hzero := truncateRat_intCast 0
    rw [Int.cast_zero] at hzero
    rw [hzero]
    constructor
    · rintro rfl
      simp
    · rintro ⟨hdown, hup⟩
      have hlow : i ≤ 0 := by exact_mod_cast (hdown le_rfl).1
      have hhigh : 0 ≤ i := by exact_mod_cast (hup le_rfl).2
      omega
  · rw [truncateRat, if_neg (not_lt.2 hpos.le), floor_eq_iff]
    exact ⟨fun h => ⟨fun _ => h, fun hle => absurd hpos (not_lt.2 hle)⟩, fun h => h.1 hpos.le⟩

/-- The nearest integer, of two equally near ones the even one. -/
def IsNearest (q : Rat) (i : Int) : Prop :=
  |q - i| < 1 / 2 ∨ |q - i| = 1 / 2 ∧ Even i

/-- The integer that is picked is a nearest one, and the even one of
two. -/
theorem isNearest_nearestEven (q : Rat) : IsNearest q (nearestEven q) := by
  have hlow : (q.floor : Rat) ≤ q := Rat.floor_le q
  have hhigh : q < (q.floor : Rat) + 1 := by exact_mod_cast Rat.lt_floor_add_one q
  unfold IsNearest nearestEven
  dsimp only
  split_ifs with hless hmore
  · left
    rwa [abs_of_nonneg (sub_nonneg.2 hlow)]
  · left
    rw [abs_lt]
    push_cast
    exact ⟨by linarith, by linarith⟩
  · right
    have hhalf : q - q.floor = 1 / 2 := le_antisymm (not_lt.1 hmore) (not_lt.1 hless)
    -- The floor or the integer above it, whichever is even.
    rcases Int.emod_two_eq_zero_or_one q.floor with heven | hodd
    · rw [heven, add_zero, hhalf]
      exact ⟨by norm_num, Int.even_iff.2 heven⟩
    · rw [hodd]
      refine ⟨?_, Int.even_iff.2 (by omega)⟩
      push_cast
      rw [← sub_sub, hhalf]
      norm_num

/-- Of two nearest integers neither is less. Two that differ are both
half away from the number, and then they cannot both be even. -/
theorem IsNearest.not_lt {j : Int} (hi : IsNearest q i) (hj : IsNearest q j) : ¬ i < j := by
  intro hlt
  have hnext : (i : Rat) + 1 ≤ j := by exact_mod_cast hlt
  have hclose : ∀ {k : Int}, IsNearest q k → |q - k| ≤ 1 / 2 := fun hk =>
    hk.elim le_of_lt fun h => h.1.le
  obtain ⟨_, hup⟩ := abs_le.1 (hclose hi)
  obtain ⟨hdown, _⟩ := abs_le.1 (hclose hj)
  -- So both are a half away, and then both would be even.
  have habove : q - i = 1 / 2 := by linarith
  have hbelow : q - j = -(1 / 2) := by linarith
  have hsucc : j = i + 1 := by exact_mod_cast (by linarith : (j : Rat) = i + 1)
  unfold IsNearest at hi hj
  rw [habove] at hi
  rw [hbelow] at hj
  obtain ⟨_, hi⟩ := hi.resolve_left (by norm_num)
  obtain ⟨_, hj⟩ := hj.resolve_left (by norm_num)
  rw [Int.even_iff] at hi hj
  omega

/-- Being a nearest integer, with ties to the even one, tells which
integer is picked. -/
theorem nearestEven_eq_iff : nearestEven q = i ↔ IsNearest q i := by
  constructor
  · rintro rfl
    exact isNearest_nearestEven q
  · intro h
    have hself := isNearest_nearestEven q
    exact le_antisymm (not_lt.1 (h.not_lt hself)) (not_lt.1 (hself.not_lt h))

end Values

/-! ### Doubles that are whole -/

variable {pick : Rat → Int} {x : Binary64} {i : Int}

/-- A double from 2 ^ 52 on is whole: its last place is at least one. -/
theorem exists_toRat_eq (h : 4503599627370496 ≤ |x.toRat|) : ∃ i : Int, x.toRat = i := by
  cases x with
  | nan | infinite negative => exact ⟨0, rfl⟩
  | finite negative significand exponent hcanonical =>
    have hexponent : 0 ≤ exponent := by
      by_contra hlow
      have hplace : (2 : Rat) ^ exponent ≤ 2 ^ (-1 : Int) :=
        zpow_le_zpow_right₀ one_le_two (by omega)
      have hbits : (significand : Rat) < 9007199254740992 := by exact_mod_cast hcanonical.1
      refine absurd h (not_le.2 ?_)
      rw [abs_toRat_finite]
      calc (significand : Rat) * 2 ^ exponent
          ≤ significand * 2 ^ (-1 : Int) := mul_le_mul_of_nonneg_left hplace (Nat.cast_nonneg _)
        _ < 9007199254740992 * 2 ^ (-1 : Int) := mul_lt_mul_of_pos_right hbits (zpow_pos two_pos _)
        _ = 4503599627370496 := by norm_num
    obtain ⟨places, rfl⟩ := Int.eq_ofNat_of_zero_le hexponent
    refine ⟨(if negative then -(significand : Int) else significand) * 2 ^ places, ?_⟩
    rw [toRat]
    cases negative <;> simp

/-- What is whole stays as it is. -/
theorem IsRounding.mapRat_eq_self (hpick : IsRounding pick) (h : x.toRat = i) :
    x.mapRat pick = x := by
  cases x with
  | nan | infinite negative => rfl
  | finite negative significand exponent hcanonical =>
    have hmagnitude : (significand : Rat) * 2 ^ exponent = i.natAbs := by
      rw [← abs_toRat_finite negative hcanonical, h, Nat.cast_natAbs, Int.cast_abs]
    rw [mapRat, h, hpick.intCast, ← hmagnitude, roundMagnitude_canonical]

/-- A rounding leaves zero between the negative and the positive. -/
theorem IsRounding.sign (hpick : IsRounding pick) (hx : x.isFinite = true) :
    if x.isNegative then pick x.toRat ≤ 0 else 0 ≤ pick x.toRat := by
  have hzero : pick 0 = 0 := by simpa using hpick.intCast 0
  cases x with
  | nan | infinite negative => cases hx
  | finite negative significand exponent hcanonical =>
    have hmagnitude : (0 : Rat) ≤ significand * 2 ^ exponent := by positivity
    rw [isNegative]
    cases negative with
    | true =>
      rw [if_pos rfl, ← hzero]
      exact hpick.mono (by simpa [toRat] using hmagnitude)
    | false =>
      rw [if_neg (by decide), ← hzero]
      exact hpick.mono (by simpa [toRat] using hmagnitude)

/-- A finite double is made whole exactly. -/
theorem IsRounding.isInt_mapRat (hpick : IsRounding pick) (hx : x.isFinite = true) :
    IsInt (x.mapRat pick) (pick x.toRat) := by
  rcases le_total 4503599627370496 |x.toRat| with hlarge | hsmall
  · obtain ⟨i, hi⟩ := exists_toRat_eq hlarge
    rw [hpick.mapRat_eq_self hi, hi, hpick.intCast]
    exact ⟨hx, hi⟩
  · have hsign := hpick.sign hx
    have hbound : (pick x.toRat).natAbs ≤ 4503599627370496 :=
      hpick.natAbs_le (by exact_mod_cast hsmall)
    obtain ⟨significand, exponent, hcanonical, hvalue⟩ :=
      exists_canonical (n := (pick x.toRat).natAbs) (by omega)
    cases x with
    | nan | infinite negative => cases hx
    | finite negative _ _ _ =>
      rw [mapRat, ← hvalue, roundMagnitude_canonical negative hcanonical]
      refine ⟨rfl, ?_⟩
      -- The magnitude has its sign back, which is that of the integer.
      rw [Nat.cast_natAbs] at hvalue
      rw [toRat]
      cases negative with
      | true =>
        rw [abs_of_nonpos hsign, Int.cast_neg] at hvalue
        rw [if_pos rfl, neg_mul, hvalue, neg_neg]
      | false =>
        rw [abs_of_nonneg hsign] at hvalue
        rw [if_neg (by decide), hvalue]

/-- A large integer is only picked for a double that has its value. -/
theorem IsRounding.toRat_eq (hpick : IsRounding pick)
    (hlarge : 4503599627370496 < (pick x.toRat).natAbs) : x.toRat = pick x.toRat := by
  have habs : 4503599627370496 ≤ |x.toRat| := by
    by_contra hsmall
    have hbound : (pick x.toRat).natAbs ≤ 4503599627370496 :=
      hpick.natAbs_le (by exact_mod_cast (not_le.1 hsmall).le)
    omega
  obtain ⟨i, hi⟩ := exists_toRat_eq habs
  rw [hi, hpick.intCast]

end Binary64

end CrapsStrategy
