import CrapsStrategy.Proofs.Binary64.Rounding
import CrapsStrategy.Proofs.Table.Odds
import Mathlib.Order.Bounds.Basic

/-!
# `CrapsStrategy.Proofs.Table.Legal`: the least amount a table accepts

A bet is played in multiples of its increment, from the table level on.
For a raw amount `Legal.playable` has the multiples that are not below
its whole dollars, in 64 bits; it is said of the exact value of the raw
amount, with no rounding in between. The legal amount is the least one
of them, or the greatest 64-bit integer where there is none, and it is
zero exactly where no whole dollar is asked for.

All else about legal amounts follows from this one characterization. A
greater raw amount has fewer playable ones, so the least does not go
down; and a legal amount is the least of those playable for itself.
-/

set_option autoImplicit false

namespace CrapsStrategy

namespace Binary64

/-! ### Whole parts -/

/-- The whole part of a double is at most an integer. Infinities are
beyond all integers, and NaN has no whole part. -/
def WholeLe (x : Binary64) (n : Int) : Prop :=
  match x with
  | nan => False
  | infinite negative => negative = true
  | x => truncateRat x.toRat ≤ n

variable {x y : Binary64} {m n : Int}

/-- What a whole part is at most may be raised. -/
theorem WholeLe.mono (h : x.WholeLe m) (hle : m ≤ n) : x.WholeLe n := by
  cases x with
  | nan => exact h
  | infinite negative => exact h
  | finite negative significand exponent hcanonical => exact Int.le_trans h hle

/-- Finite doubles compare as their exact values do. -/
theorem toRat_le_of_lessEqual (hx : x.isFinite = true) (hy : y.isFinite = true)
    (h : x.lessEqual y = true) : x.toRat ≤ y.toRat := by
  by_contra hgreater
  have hlt := not_le.1 hgreater
  rw [lessEqual, compare?_of_isFinite hx hy, compareRat, if_neg (not_lt.2 hlt.le), if_pos hlt] at h
  cases h

/-- NaN compares with nothing. -/
theorem isNaN_of_lessEqual (h : x.lessEqual y = true) : x.isNaN = false ∧ y.isNaN = false := by
  cases x with
  | nan => cases h
  | infinite negative | finite negative significand exponent hcanonical =>
    cases y with
    | nan => cases h
    | infinite _ | finite _ _ _ _ => exact ⟨rfl, rfl⟩

/-- What is at most another double has no greater whole part. -/
theorem WholeLe.of_lessEqual (h : y.WholeLe n) (hle : x.lessEqual y = true) : x.WholeLe n := by
  cases x with
  | nan => cases hle
  | infinite negative =>
    cases negative with
    | true => rfl
    | false =>
      -- Only positive infinity is not below positive infinity.
      cases y with
      | nan => cases hle
      | infinite negative =>
        cases negative with
        | true => cases hle
        | false => exact h
      | finite negative significand exponent hcanonical => cases hle
  | finite a i k hi =>
    cases y with
    | nan => cases h
    | infinite negative =>
      cases negative with
      | true => cases hle
      | false => cases h
    | finite b j l hj =>
      exact Int.le_trans (truncateRat_mono (toRat_le_of_lessEqual rfl rfl hle)) h

/-- Within the range the 64-bit integer of a double is its whole
part. -/
theorem saturate_le_iff (hx : x.WholeLe maxInt) (hn : minInt ≤ n) :
    x.saturate ≤ n ↔ x.WholeLe n := by
  cases x with
  | nan => cases hx
  | infinite negative =>
    cases hx
    exact ⟨fun _ => rfl, fun _ => hn⟩
  | finite negative significand exponent hcanonical =>
    show clamp _ ≤ n ↔ truncateRat _ ≤ n
    have hwhole : truncateRat (finite negative significand exponent hcanonical).toRat ≤ maxInt := hx
    unfold clamp
    omega

/-- Beyond the range it is the greatest one. -/
theorem saturate_eq_maxInt (hnan : x.isNaN = false) (hx : ¬ x.WholeLe maxInt) :
    x.saturate = maxInt := by
  cases x with
  | nan => cases hnan
  | infinite negative =>
    cases negative with
    | true => exact absurd rfl hx
    | false => rfl
  | finite negative significand exponent hcanonical =>
    show clamp _ = maxInt
    have hwhole : ¬ truncateRat (finite negative significand exponent hcanonical).toRat ≤ maxInt :=
      hx
    unfold clamp minInt maxInt at *
    omega

/-- An integer that a double has exactly is its own whole part. -/
theorem wholeLe_ofInt (hm : m.natAbs ≤ 9007199254740992) : (ofInt m).WholeLe n ↔ m ≤ n := by
  obtain ⟨significand, exponent, hcanonical, hround, _⟩ := ofInt_eq_finite hm
  have hvalue := toRat_ofInt hm
  rw [hround] at hvalue ⊢
  show truncateRat _ ≤ n ↔ _
  rw [hvalue, truncateRat_intCast]

/-- Such a double is a number. -/
theorem isNaN_ofInt (hm : m.natAbs ≤ 9007199254740992) : (ofInt m).isNaN = false := by
  obtain ⟨significand, exponent, hcanonical, hround, _⟩ := ofInt_eq_finite hm
  rw [hround]
  rfl

end Binary64

namespace Legal

variable {key : String} {raw : Binary64} {table : TableRules} {amount step n : Int}

/-! ### Whole dollars -/

/-- Whole dollars are the whole part, where it is in range and not
negative. -/
theorem wholeDollars_le_iff (hraw : raw.WholeLe Binary64.maxInt) (hn : 0 ≤ n) :
    wholeDollars raw ≤ n ↔ raw.WholeLe n := by
  have hsaturate := Binary64.saturate_le_iff hraw (n := n) (by unfold Binary64.minInt; omega)
  rw [← hsaturate, wholeDollars]
  omega

/-- Whether there is a whole dollar at all. -/
theorem wholeDollars_eq_zero_iff (raw : Binary64) :
    wholeDollars raw = 0 ↔ raw.isNaN = true ∨ raw.WholeLe 0 := by
  cases hnan : raw.isNaN with
  | true =>
    cases raw with
    | nan => simp [wholeDollars, Binary64.saturate]
    | _ => cases hnan
  | false =>
    have hnonneg := zero_le_wholeDollars raw
    by_cases hraw : raw.WholeLe Binary64.maxInt
    · have hzero := wholeDollars_le_iff hraw (Int.le_refl 0)
      constructor
      · exact fun h => .inr (hzero.1 (Int.le_of_eq h))
      · rintro (h | h)
        · cases h
        · exact Int.le_antisymm (hzero.2 h) hnonneg
    · rw [wholeDollars, Binary64.saturate_eq_maxInt hnan hraw]
      constructor
      · exact fun h => absurd h (by decide)
      · rintro (h | h)
        · cases h
        · exact absurd (h.mono (by decide)) hraw

/-! ### Multiples of the increment -/

/-- What bets come in multiples of: single dollars on a bubble table,
six dollars on the six and the eight, five on the other places, and the
table level for flat bets. -/
def increment (key : String) (table : TableRules) : Int :=
  if table.bubble then 1
  else if BetKey.placeNumber? key ∈ [some 6, some 8] then 6
  else if BetKey.placeNumber? key ∈ [some 4, some 5, some 9, some 10] then 5
  else max table.level 1

/-- Increments are a dollar at least, also at a table level below one. -/
theorem one_le_increment (key : String) (table : TableRules) : 1 ≤ increment key table := by
  unfold increment
  split_ifs <;> omega

/-- The step that the table computes is the increment. -/
theorem betStep_eq_increment (key : String) (table : TableRules) :
    betStep table (BetKey.placeNumber? key) = increment key table := by
  unfold betStep increment
  generalize BetKey.placeNumber? key = number
  split
  · rfl
  · split <;> simp_all

/-- The multiples of a step from an amount on, in 64 bits. -/
def multiples (amount step : Int) : Set Int :=
  {n | step ∣ n ∧ amount ≤ n ∧ n ≤ Binary64.maxInt}

/-- Rounding up finds the least multiple, and where there is none the
greatest 64-bit integer. -/
theorem isLeast_roundUp (hstep : 1 ≤ step) (hamount : amount ≤ Binary64.maxInt) :
    IsLeast (multiples amount step) (roundUp amount step) ∨
      multiples amount step = ∅ ∧ roundUp amount step = Binary64.maxInt := by
  have hself : step ∣ amount → IsLeast (multiples amount step) amount := fun hdvd =>
    ⟨⟨hdvd, Int.le_refl amount, hamount⟩, fun _ hn => hn.2.1⟩
  unfold roundUp
  by_cases hone : step ≤ 1
  · rw [if_pos hone]
    have hsingle : step = 1 := Int.le_antisymm hone hstep
    exact .inl (hself (hsingle ▸ one_dvd amount))
  rw [if_neg hone]
  by_cases hzero : amount % step = 0
  · rw [if_pos hzero]
    exact .inl (hself (Int.dvd_of_emod_eq_zero hzero))
  rw [if_neg hzero]
  -- The next multiple is less than a step away, so nothing comes before it.
  have hrest : 0 ≤ amount % step := Int.emod_nonneg amount (by omega)
  have hless : amount % step < step := Int.emod_lt_of_pos amount (by omega)
  have hdvd : step ∣ amount + (step - amount % step) := by
    have hdown : step ∣ amount - amount % step := Int.dvd_self_sub_emod
    have heq : amount + (step - amount % step) = amount - amount % step + step := by omega
    rw [heq]
    exact Int.dvd_add hdown (Int.dvd_refl step)
  have hnext : ∀ n, step ∣ n → amount ≤ n → amount + (step - amount % step) ≤ n := by
    intro n hn hle
    by_contra hbefore
    have hgap := Int.le_of_dvd (by omega) (Int.dvd_sub hdvd hn)
    omega
  by_cases hfits : amount + (step - amount % step) ≤ Binary64.maxInt
  · rw [Int.min_eq_right hfits]
    exact .inl ⟨⟨hdvd, by omega, hfits⟩, fun n hn => hnext n hn.1 hn.2.1⟩
  · refine .inr ⟨Set.eq_empty_of_forall_notMem fun n hn => ?_, Int.min_eq_left (by omega)⟩
    exact hfits (Int.le_trans (hnext n hn.1 hn.2.1) hn.2.2)

/-! ### Legal amounts -/

/-- The amounts that a bet may be played at for a raw amount: multiples
of its increment, below neither the whole dollars nor the table level. -/
def playable (key : String) (raw : Binary64) (table : TableRules) : Set Int :=
  {n | increment key table ∣ n ∧ raw.WholeLe n ∧ table.level ≤ n ∧ n ≤ Binary64.maxInt}

/-- With a whole dollar asked for, the legal amount is rounded up from
the greater of the dollars and the level. -/
theorem bet_eq_roundUp (h : wholeDollars raw ≠ 0) :
    bet key raw table =
      roundUp (max (wholeDollars raw) table.level) (increment key table) := by
  show (if wholeDollars raw = 0 then _ else _) = _
  rw [if_neg h, betStep_eq_increment]

/-- The playable amounts are the multiples that rounding up looks for. -/
theorem playable_eq_multiples (hzero : ¬ raw.WholeLe 0) (hraw : raw.WholeLe Binary64.maxInt) :
    playable key raw table =
      multiples (max (wholeDollars raw) table.level) (increment key table) := by
  have hwhole : ∀ n, raw.WholeLe n ↔ wholeDollars raw ≤ n := by
    intro n
    by_cases hn : 0 ≤ n
    · exact (wholeDollars_le_iff hraw hn).symm
    · -- Whole dollars are not negative, and here the whole part is not either.
      have hnonneg := zero_le_wholeDollars raw
      constructor
      · exact fun h => absurd (h.mono (by omega)) hzero
      · exact fun h => absurd h (by omega)
  ext n
  show _ ∧ raw.WholeLe n ∧ _ ∧ _ ↔ _ ∧ max _ _ ≤ n ∧ _
  rw [hwhole, Int.max_le, and_assoc]

/-- With a whole dollar asked for the legal amount is the least playable
one, and where there is none the greatest 64-bit integer. -/
theorem isLeast_bet (hlevel : table.level ≤ Binary64.maxInt) (hnan : raw.isNaN = false)
    (hzero : ¬ raw.WholeLe 0) :
    IsLeast (playable key raw table) (bet key raw table) ∨
      playable key raw table = ∅ ∧ bet key raw table = Binary64.maxInt := by
  have hdollar : wholeDollars raw ≠ 0 := by
    rw [Ne, wholeDollars_eq_zero_iff, hnan]
    exact fun h => hzero (h.resolve_left Bool.false_ne_true)
  have hround := isLeast_roundUp (one_le_increment key table)
    (max_le (wholeDollars_le_maxInt raw) hlevel)
  rw [← bet_eq_roundUp hdollar] at hround
  by_cases hraw : raw.WholeLe Binary64.maxInt
  · rw [playable_eq_multiples hzero hraw]
    exact hround
  · -- No 64-bit integer has so many dollars.
    have hempty : playable key raw table = ∅ :=
      Set.eq_empty_of_forall_notMem fun n hn => hraw (hn.2.1.mono hn.2.2.2)
    have hwhole : wholeDollars raw = Binary64.maxInt := by
      rw [wholeDollars, Binary64.saturate_eq_maxInt hnan hraw]
      decide
    refine .inr ⟨hempty, ?_⟩
    rw [hwhole, Int.max_eq_left hlevel] at hround
    rcases hround with hleast | ⟨_, hmax⟩
    · exact Int.le_antisymm hleast.1.2.2 hleast.1.2.1
    · exact hmax

/-- With a whole dollar asked for, there is something to play. -/
theorem bet_pos (hlevel : table.level ≤ Binary64.maxInt) (hnan : raw.isNaN = false)
    (hzero : ¬ raw.WholeLe 0) : 0 < bet key raw table := by
  rcases isLeast_bet hlevel hnan hzero with hleast | ⟨_, hmax⟩
  · by_contra hneg
    exact hzero (hleast.1.2.1.mono (not_lt.1 hneg))
  · rw [hmax]
    decide

/-- Nothing is played exactly when no whole dollar is asked for. -/
theorem bet_eq_zero_iff (hlevel : table.level ≤ Binary64.maxInt) :
    bet key raw table = 0 ↔ raw.isNaN = true ∨ raw.WholeLe 0 := by
  constructor
  · intro h
    by_contra hdollar
    obtain ⟨hnan, hzero⟩ := not_or.1 hdollar
    have hpos : 0 < bet key raw table :=
      bet_pos hlevel (Bool.eq_false_of_not_eq_true hnan) hzero
    omega
  · intro h
    show (if wholeDollars raw = 0 then _ else _) = _
    rw [if_pos ((wholeDollars_eq_zero_iff raw).2 h)]

/-- A legal amount is never negative. -/
theorem bet_nonneg (hlevel : table.level ≤ Binary64.maxInt) : 0 ≤ bet key raw table := by
  by_cases hdollar : raw.isNaN = true ∨ raw.WholeLe 0
  · exact ((bet_eq_zero_iff hlevel).2 hdollar).ge
  · obtain ⟨hnan, hzero⟩ := not_or.1 hdollar
    exact (bet_pos hlevel (Bool.eq_false_of_not_eq_true hnan) hzero).le

/-- A greater raw amount has no more playable ones, so the least is not
less. -/
theorem bet_le_bet (hlevel : table.level ≤ Binary64.maxInt) {greater : Binary64}
    (h : raw.lessEqual greater = true) : bet key raw table ≤ bet key greater table := by
  obtain ⟨hnan, hnan'⟩ := Binary64.isNaN_of_lessEqual h
  by_cases hzero : raw.WholeLe 0
  · rw [(bet_eq_zero_iff hlevel).2 (.inr hzero)]
    exact bet_nonneg hlevel
  have hzero' : ¬ greater.WholeLe 0 := fun hle => hzero (hle.of_lessEqual h)
  have hsubset : playable key greater table ⊆ playable key raw table :=
    fun n hn => ⟨hn.1, hn.2.1.of_lessEqual h, hn.2.2⟩
  rcases isLeast_bet hlevel hnan' hzero' with hgreater | ⟨_, hmax⟩
  · rcases isLeast_bet hlevel hnan hzero with hleast | ⟨hempty, _⟩
    · exact hleast.2 (hsubset hgreater.1)
    · exact absurd (hsubset hgreater.1) (hempty ▸ Set.notMem_empty _)
  · rw [hmax]
    exact bet_le_maxInt hlevel key raw

/-- A legal amount is legal for itself. -/
theorem bet_bet (hlevel : table.level ≤ Binary64.maxInt)
    (h : bet key raw table ≤ 9007199254740992) :
    bet key (.ofInt (bet key raw table)) table = bet key raw table := by
  have hnonneg : 0 ≤ bet key raw table := bet_nonneg hlevel
  have hexact : (bet key raw table).natAbs ≤ 9007199254740992 := by omega
  have hwhole : ∀ n, (Binary64.ofInt (bet key raw table)).WholeLe n ↔ bet key raw table ≤ n :=
    fun n => Binary64.wholeLe_ofInt hexact
  by_cases hdollar : bet key raw table = 0
  · -- Nothing is played, then or again.
    rw [hdollar, bet_eq_zero_iff hlevel, ← hdollar]
    exact .inr ((hwhole _).2 (Int.le_refl _))
  obtain ⟨hnan, hzero⟩ := not_or.1 (mt (bet_eq_zero_iff hlevel).2 hdollar)
  have hmem : bet key raw table ∈ playable key raw table := by
    rcases isLeast_bet hlevel (Bool.eq_false_of_not_eq_true hnan) hzero with hleast | ⟨_, hmax⟩
    · exact hleast.1
    · rw [hmax] at h
      exact absurd h (by decide)
  have hagain : IsLeast (playable key (.ofInt (bet key raw table)) table) (bet key raw table) :=
    ⟨⟨hmem.1, (hwhole _).2 (Int.le_refl _), hmem.2.2⟩, fun n hn => (hwhole n).1 hn.2.1⟩
  have hzero' : ¬ (Binary64.ofInt (bet key raw table)).WholeLe 0 := by
    rw [hwhole]
    omega
  rcases isLeast_bet hlevel (Binary64.isNaN_ofInt hexact) hzero' with hleast | ⟨hempty, _⟩
  · exact hleast.unique hagain
  · exact absurd hagain.1 (hempty ▸ Set.notMem_empty _)

/-- Legal amounts of all bets but odds, of every raw amount: none
exactly without a whole dollar, else the least playable one, or the
greatest 64-bit integer where no such integer is playable. They do not
go down as the raw amount goes up, and are legal for themselves as far
as doubles have all integers. -/
theorem bet_least_playable (key : String) (raw : Binary64) (table : TableRules)
    (hlevel : table.level ≤ Binary64.maxInt) :
    (bet key raw table = 0 ↔ raw.isNaN = true ∨ raw.WholeLe 0) ∧
      (raw.isNaN = false → ¬ raw.WholeLe 0 →
        IsLeast (playable key raw table) (bet key raw table) ∨
          playable key raw table = ∅ ∧ bet key raw table = Binary64.maxInt) ∧
      (∀ greater, raw.lessEqual greater = true →
        bet key raw table ≤ bet key greater table) ∧
      (bet key raw table ≤ 9007199254740992 →
        bet key (.ofInt (bet key raw table)) table = bet key raw table) :=
  ⟨bet_eq_zero_iff hlevel, isLeast_bet hlevel, fun _ => bet_le_bet hlevel, bet_bet hlevel⟩

/-- Ten dollars on the six of a ten-dollar table. -/
theorem bet_least_playable_six :
    bet "place_6" (.ofInt 10) ⟨false, 10, .threeFourFive⟩ = 12 ∧
      IsLeast (playable "place_6" (.ofInt 10) ⟨false, 10, .threeFourFive⟩) 12 ∧
      12 ≤ bet "place_6" (.infinite false) ⟨false, 10, .threeFourFive⟩ ∧
      bet "place_6" (.ofInt 12) ⟨false, 10, .threeFourFive⟩ = 12 := by
  have hbet : bet "place_6" (.ofInt 10) ⟨false, 10, .threeFourFive⟩ = 12 := by decide +kernel
  obtain ⟨hzero, hleast, hmono, hagain⟩ :=
    bet_least_playable "place_6" (.ofInt 10) ⟨false, 10, .threeFourFive⟩ (by decide)
  rw [hbet] at hzero hleast hmono hagain
  have hdollar : ¬ (Binary64.ofInt 10).WholeLe 0 := fun h => absurd (hzero.2 (.inr h)) (by decide)
  refine ⟨hbet, ?_, hmono (.infinite false) (by decide +kernel), hagain (by decide)⟩
  exact (hleast (by decide +kernel) hdollar).resolve_right fun h => absurd h.2 (by decide)

end Legal

end CrapsStrategy
