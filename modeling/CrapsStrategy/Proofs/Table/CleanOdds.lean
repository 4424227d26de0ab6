import CrapsStrategy.Proofs.Table.Legal

/-!
# `CrapsStrategy.Proofs.Table.CleanOdds`: the greatest odds a table takes

Odds are taken and laid in steps that win whole dollars. `cleanOdds` has
the amounts that may be put behind a line bet for a raw amount: multiples
of the step, within the whole dollars of the raw amount and within the
limit of the table, in 64 bits. Legal odds are the greatest of them.

The limit on laid odds is on what they win. Turned into a limit on the
amount it is a product and a quotient, and where the product ends at the
greatest 64-bit integer the quotient is too low. So laid odds are always
a clean amount, and the greatest one as long as the product fits
(`isGreatest_layOdds`).
-/

set_option autoImplicit false

namespace CrapsStrategy

namespace Binary64

/-- The whole dollars of a double are at least a number. NaN and what is
negative have none, and infinity has any number. -/
def HasDollars (x : Binary64) (n : Int) : Prop :=
  match x with
  | nan => n ≤ 0
  | infinite negative => negative = true → n ≤ 0
  | x => n ≤ max 0 (truncateRat x.toRat)

end Binary64

namespace LineSide

/-- What odds of an amount win on a point. -/
def winnings (side : LineSide) (point : Nat) (amount : Int) : Rat :=
  match side with
  | pass => amount * (layRatio point).1 / (layRatio point).2
  | dont => amount * (layRatio point).2 / (layRatio point).1

/-- What odds on a point come in multiples of: single dollars on a bubble
table, and elsewhere what wins whole dollars. -/
def oddsStep (side : LineSide) (table : TableRules) (point : Nat) : Int :=
  if table.bubble then 1
  else match side with
    | pass => (layRatio point).2
    | dont => (layRatio point).1

/-- Both parts of the ratio are positive, and it is in lowest terms. -/
theorem layRatio_lowest (point : Nat) :
    1 ≤ (layRatio point).1 ∧ 1 ≤ (layRatio point).2 ∧
      Int.gcd (layRatio point).1 (layRatio point).2 = 1 := by
  unfold layRatio
  split <;> decide

/-- The limit on laid odds is one on what they win. -/
theorem oddsWithin_dont_iff {point : Nat} {limit amount : Int} :
    dont.OddsWithin point limit amount ↔ dont.winnings point amount ≤ limit := by
  have hlaid : (0 : Rat) < (layRatio point).1 := by
    exact_mod_cast (by have hone := (layRatio_lowest point).1; omega : 0 < (layRatio point).1)
  show amount * _ ≤ limit * _ ↔ _ / _ ≤ (limit : Rat)
  rw [div_le_iff₀ hlaid]
  norm_cast

/-- Odds go in steps of a dollar at least. -/
theorem one_le_oddsStep (side : LineSide) (table : TableRules) (point : Nat) :
    1 ≤ side.oddsStep table point := by
  obtain ⟨hlaid, hwon, _⟩ := layRatio_lowest point
  unfold oddsStep
  split
  · exact Int.le_refl 1
  · cases side with
    | pass => exact hwon
    | dont => exact hlaid

/-- A fraction in lowest terms is whole on the multiples of its
denominator. -/
theorem whole_mul_div_iff {a b n : Int} (hb : b ≠ 0) (hlowest : Int.gcd b a = 1) :
    (∃ w : Int, (n : Rat) * a / b = w) ↔ b ∣ n := by
  have hdenominator : (b : Rat) ≠ 0 := Int.cast_ne_zero.2 hb
  constructor
  · rintro ⟨w, hw⟩
    rw [div_eq_iff hdenominator] at hw
    have hproduct : n * a = w * b := by exact_mod_cast hw
    exact Int.dvd_of_dvd_mul_left_of_gcd_one ⟨w, by rw [hproduct, mul_comm]⟩ hlowest
  · rintro ⟨k, rfl⟩
    refine ⟨k * a, ?_⟩
    rw [div_eq_iff hdenominator]
    push_cast
    ring

/-- Only multiples of the step win whole dollars, and all of them do. -/
theorem whole_winnings_iff {side : LineSide} {table : TableRules} {point : Nat} {amount : Int}
    (h : table.bubble = false) :
    (∃ dollars : Int, side.winnings point amount = dollars) ↔
      side.oddsStep table point ∣ amount := by
  obtain ⟨hlaid, hwon, hlowest⟩ := layRatio_lowest point
  unfold oddsStep
  rw [h]
  cases side with
  | pass => exact whole_mul_div_iff (by omega) (by rwa [Int.gcd_comm])
  | dont => exact whole_mul_div_iff (by omega) hlowest

end LineSide

namespace Legal

variable {side : LineSide} {point : Nat} {base more : Int} {raw greater : Binary64}
  {table : TableRules} {amount step n : Int}

/-- The six point numbers, one by one. -/
theorem point_cases (h : isPoint point = true) :
    point = 4 ∨ point = 5 ∨ point = 6 ∨ point = 8 ∨ point = 9 ∨ point = 10 := by
  simpa [isPoint, pointNumbers] using h

/-! ### Rounding down -/

/-- Rounding down in terms of the quotient, also for a step of one. -/
theorem roundDown_eq (hstep : 1 ≤ step) (amount : Int) :
    roundDown amount step = step * (amount / step) := by
  unfold roundDown
  split
  · have hone : step = 1 := by omega
    rw [hone, Int.ediv_one, one_mul]
  · rw [Int.emod_def]
    omega

/-- Rounding down finds the greatest multiple. -/
theorem isGreatest_roundDown (hstep : 1 ≤ step) (hamount : 0 ≤ amount) :
    IsGreatest {n | 0 ≤ n ∧ step ∣ n ∧ n ≤ amount} (roundDown amount step) := by
  refine ⟨⟨?_, ?_, roundDown_le amount step⟩, ?_⟩
  · rw [roundDown_eq hstep]
    exact Int.mul_nonneg (by omega) (Int.ediv_nonneg hamount (by omega))
  · rw [roundDown_eq hstep]
    exact Int.dvd_mul_right _ _
  · rintro n ⟨_, ⟨k, rfl⟩, hle⟩
    rw [roundDown_eq hstep]
    refine Int.mul_le_mul_of_nonneg_left ?_ (by omega)
    rw [Int.le_ediv_iff_mul_le (by omega), mul_comm]
    exact hle

/-- A greater amount is rounded down to no less. -/
theorem roundDown_mono (hstep : 1 ≤ step) {amount' : Int} (h : amount ≤ amount') :
    roundDown amount step ≤ roundDown amount' step := by
  rw [roundDown_eq hstep, roundDown_eq hstep]
  exact Int.mul_le_mul_of_nonneg_left (Int.ediv_le_ediv (by omega) h) (by omega)

/-! ### Whole dollars -/

/-- Whole dollars are those that the double has, up to the greatest
64-bit integer. -/
theorem le_wholeDollars_iff (hn : n ≤ Binary64.maxInt) :
    n ≤ wholeDollars raw ↔ raw.HasDollars n := by
  unfold wholeDollars
  cases raw with
  | nan => exact Iff.rfl
  | infinite negative =>
    cases negative with
    | true => exact ⟨fun h _ => h, fun h => h rfl⟩
    | false => exact iff_of_true hn Bool.noConfusion
  | finite negative significand exponent hcanonical =>
    show n ≤ max 0 (Binary64.clamp _) ↔ n ≤ max 0 _
    unfold Binary64.clamp Binary64.minInt
    omega

/-- A greater double has no fewer whole dollars. -/
theorem wholeDollars_mono (h : raw.lessEqual greater = true) :
    wholeDollars raw ≤ wholeDollars greater := by
  by_cases hfits : greater.WholeLe Binary64.maxInt
  · have hnonneg := zero_le_wholeDollars greater
    rw [wholeDollars_le_iff (hfits.of_lessEqual h) hnonneg]
    exact ((wholeDollars_le_iff hfits hnonneg).1 (Int.le_refl _)).of_lessEqual h
  · have hmax := Binary64.saturate_eq_maxInt (Binary64.isNaN_of_lessEqual h).2 hfits
    rw [wholeDollars, wholeDollars, hmax]
    exact wholeDollars_le_maxInt raw

/-! ### Limits -/

/-- No policy has a negative multiple. -/
theorem multiple_nonneg (policy : OddsPolicy) (point : Nat) : 0 ≤ policy.multiple point := by
  unfold OddsPolicy.multiple
  split
  · cases policy with
    | threeFourFive => split_ifs <;> decide
    | uniform n => exact Int.natCast_nonneg n
  · exact Int.le_refl 0

/-- What the odds policy allows on a line bet of `base`. -/
def oddsLimit (table : TableRules) (point : Nat) (base : Int) : Int :=
  table.odds.multiple point * max base 0

/-- The limit is never negative, for a negative line bet counts as none. -/
theorem oddsLimit_nonneg (table : TableRules) (point : Nat) (base : Int) :
    0 ≤ oddsLimit table point base :=
  Int.mul_nonneg (multiple_nonneg _ _) (Int.le_max_right _ _)

/-- A greater line bet has no lower limit. -/
theorem oddsLimit_mono (h : base ≤ more) :
    oddsLimit table point base ≤ oddsLimit table point more :=
  Int.mul_le_mul_of_nonneg_left (max_le_max_right 0 h) (multiple_nonneg _ _)

/-- The cap that is computed is not negative either. -/
theorem oddsCap_nonneg (table : TableRules) (point : Nat) (base : Int) :
    0 ≤ oddsCap table.odds point base :=
  le_min (by decide) (oddsLimit_nonneg table point base)

/-- The cap is the limit in 64 bits. -/
theorem oddsCap_eq_min (table : TableRules) (point : Nat) (base : Int) :
    oddsCap table.odds point base = min Binary64.maxInt (oddsLimit table point base) :=
  rfl

/-- The amounts that may be put behind a line bet of `base` for a raw
amount. -/
def cleanOdds (side : LineSide) (point : Nat) (base : Int) (raw : Binary64) (table : TableRules) :
    Set Int :=
  {n | 0 ≤ n ∧ side.oddsStep table point ∣ n ∧ raw.HasDollars n ∧ n ≤ Binary64.maxInt ∧
    side.OddsWithin point (oddsLimit table point base) n}

/-- No odds are always within a limit. -/
theorem oddsWithin_zero (side : LineSide) (point : Nat) (hlimit : 0 ≤ n) :
    side.OddsWithin point n 0 := by
  cases side with
  | pass => exact hlimit
  | dont =>
    obtain ⟨hlaid, _, _⟩ := LineSide.layRatio_lowest point
    show 0 * _ ≤ n * _
    rw [Int.zero_mul]
    exact Int.mul_nonneg hlimit (by omega)

/-- Under a limit of zero there are no odds. -/
theorem nonpos_of_oddsWithin (h : side.OddsWithin point 0 n) : n ≤ 0 := by
  cases side with
  | pass => exact h
  | dont =>
    obtain ⟨_, hwon, _⟩ := LineSide.layRatio_lowest point
    have hwin : n * (LineSide.layRatio point).2 ≤ 0 * (LineSide.layRatio point).1 := h
    rw [Int.zero_mul] at hwin
    by_contra hpos
    have hsome := Int.mul_pos (not_le.1 hpos) (by omega : 0 < (LineSide.layRatio point).2)
    omega

/-- What is no point takes nothing. -/
theorem isGreatest_zero (h : isPoint point = false) :
    IsGreatest (cleanOdds side point base raw table) 0 := by
  have hlimit : oddsLimit table point base = 0 := by
    simp [oddsLimit, OddsPolicy.multiple, h]
  refine ⟨⟨Int.le_refl 0, dvd_zero _, ?_, by decide, oddsWithin_zero _ _ hlimit.ge⟩, ?_⟩
  · exact (le_wholeDollars_iff (by decide)).1 (zero_le_wholeDollars raw)
  · rintro n ⟨_, _, _, _, hwithin⟩
    rw [hlimit] at hwithin
    exact nonpos_of_oddsWithin hwithin

/-- An amount rounded down is clean if all amounts up to its cap are
within the limit. -/
theorem roundDown_mem_cleanOdds {cap : Int} (hnonneg : 0 ≤ cap)
    (hwithin : ∀ n ≤ cap, side.OddsWithin point (oddsLimit table point base) n) :
    roundDown (min (wholeDollars raw) cap) (side.oddsStep table point) ∈
      cleanOdds side point base raw table := by
  obtain ⟨⟨hzero, hstep, hle⟩, _⟩ := isGreatest_roundDown
    (side.one_le_oddsStep table point) (le_min (zero_le_wholeDollars raw) hnonneg)
  obtain ⟨hdollars, hle⟩ := le_min_iff.1 hle
  have hfits := hdollars.trans (wholeDollars_le_maxInt raw)
  exact ⟨hzero, hstep, (le_wholeDollars_iff hfits).1 hdollars, hfits, hwithin _ hle⟩

/-- An amount rounded down is the greatest clean one if exactly the
amounts up to its cap are within the limit. -/
theorem isGreatest_cleanOdds {cap : Int} (hnonneg : 0 ≤ cap)
    (hcap : ∀ n ≤ Binary64.maxInt,
      n ≤ cap ↔ side.OddsWithin point (oddsLimit table point base) n)
    (hfits : cap ≤ Binary64.maxInt) :
    IsGreatest (cleanOdds side point base raw table)
      (roundDown (min (wholeDollars raw) cap) (side.oddsStep table point)) := by
  refine ⟨roundDown_mem_cleanOdds hnonneg fun n hn => (hcap n (hn.trans hfits)).1 hn, ?_⟩
  rintro n ⟨hzero, hstep, hdollars, hn, hwithin⟩
  have hle : n ≤ min (wholeDollars raw) cap :=
    le_min ((le_wholeDollars_iff hn).2 hdollars) ((hcap n hn).2 hwithin)
  exact (isGreatest_roundDown (side.one_le_oddsStep table point) (hzero.trans hle)).2
    ⟨hzero, hstep, hle⟩

/-! ### Taken odds -/

/-- The step of taken odds is the one that wins whole dollars. -/
theorem passStep_eq (h : isPoint point = true) :
    passStep table point = LineSide.pass.oddsStep table point := by
  rcases point_cases h with rfl | rfl | rfl | rfl | rfl | rfl <;> rfl

/-- No odds are taken on what is no point. -/
theorem passOdds_eq_zero (h : isPoint point = false) : passOdds point base raw table = 0 := by
  have hmin : min (wholeDollars raw) 0 = 0 := Int.min_eq_right (zero_le_wholeDollars raw)
  rw [passOdds, oddsCap_eq_zero table.odds h, hmin]
  simp [roundDown]

/-- Taken odds are the greatest clean amount, whatever the raw amount
and the line bet are. -/
theorem isGreatest_passOdds (point : Nat) (base : Int) (raw : Binary64) (table : TableRules) :
    IsGreatest (cleanOdds .pass point base raw table) (passOdds point base raw table) := by
  cases hpoint : isPoint point with
  | false =>
    rw [passOdds_eq_zero hpoint]
    exact isGreatest_zero hpoint
  | true =>
    rw [passOdds, passStep_eq hpoint]
    -- The cap ends where amounts do, so it leaves out none of them.
    refine isGreatest_cleanOdds (oddsCap_nonneg _ _ _) (fun n hn => ?_) (Int.min_le_left _ _)
    rw [oddsCap_eq_min, le_min_iff]
    exact and_iff_right hn

/-! ### Laid odds -/

/-- What is laid to win a cap, on every point. -/
theorem layCap?_eq (h : isPoint point = true) (winCap : Int) :
    layCap? point winCap =
      some (boundedMul winCap (LineSide.layRatio point).1 / (LineSide.layRatio point).2,
        (LineSide.layRatio point).1) := by
  -- On the four and the ten nothing is divided.
  have heven : some (boundedMul winCap 2, (2 : Int)) = some (boundedMul winCap 2 / 1, 2) := by
    rw [Int.ediv_one]
  rcases point_cases h with rfl | rfl | rfl | rfl | rfl | rfl
  · exact heven
  · rfl
  · rfl
  · rfl
  · rfl
  · exact heven

/-- Nothing is laid on what is no point. -/
theorem layCap?_eq_none (h : isPoint point = false) (winCap : Int) :
    layCap? point winCap = none := by
  unfold layCap?
  split
  case h_7 => rfl
  all_goals cases h

/-- The greatest amount that may be laid on a point, whole dollars and
steps aside. -/
def layLimit (table : TableRules) (point : Nat) (base : Int) : Int :=
  boundedMul (oddsCap table.odds point base) (LineSide.layRatio point).1 /
    (LineSide.layRatio point).2

/-- Laid odds in terms of the limit on the amount, on every point. -/
theorem layOdds_eq (h : isPoint point = true) :
    layOdds point base raw table =
      roundDown (min (wholeDollars raw) (layLimit table point base))
        (LineSide.dont.oddsStep table point) := by
  unfold layOdds
  rw [layCap?_eq h]
  rfl

/-- No odds are laid on what is no point. -/
theorem layOdds_eq_zero (h : isPoint point = false) : layOdds point base raw table = 0 := by
  unfold layOdds
  rw [layCap?_eq_none h]

/-- The limit on the amount is not negative. -/
theorem layLimit_nonneg (table : TableRules) (point : Nat) (base : Int) :
    0 ≤ layLimit table point base := by
  obtain ⟨hlaid, hwon, _⟩ := LineSide.layRatio_lowest point
  refine Int.ediv_nonneg (le_min (by decide) ?_) (by omega)
  exact Int.mul_nonneg (oddsCap_nonneg table point base) (by omega)

/-- The limit on the amount is within 64 bits. -/
theorem layLimit_le_maxInt (table : TableRules) (point : Nat) (base : Int) :
    layLimit table point base ≤ Binary64.maxInt := by
  obtain ⟨hlaid, hwon, _⟩ := LineSide.layRatio_lowest point
  have hcap := oddsCap_nonneg table point base
  refine (Int.ediv_le_self _ (le_min (by decide) ?_)).trans (Int.min_le_left _ _)
  exact Int.mul_nonneg hcap (by omega)

/-- No amount up to the limit wins more than it may. -/
theorem oddsWithin_of_le_layLimit (h : n ≤ layLimit table point base) :
    LineSide.dont.OddsWithin point (oddsLimit table point base) n := by
  obtain ⟨hlaid, hwon, _⟩ := LineSide.layRatio_lowest point
  show n * _ ≤ oddsLimit table point base * _
  calc n * (LineSide.layRatio point).2
      ≤ boundedMul (oddsCap table.odds point base) (LineSide.layRatio point).1 :=
        (Int.le_ediv_iff_mul_le (by omega)).1 h
    _ ≤ oddsCap table.odds point base * (LineSide.layRatio point).1 := boundedMul_le _ _
    _ ≤ oddsLimit table point base * (LineSide.layRatio point).1 :=
        Int.mul_le_mul_of_nonneg_right (Int.min_le_right _ _) (by omega)

/-- And where the product fits, no greater amount wins so little. -/
theorem le_layLimit_iff
    (hfits : oddsLimit table point base * (LineSide.layRatio point).1 ≤ Binary64.maxInt) :
    n ≤ layLimit table point base ↔
      LineSide.dont.OddsWithin point (oddsLimit table point base) n := by
  obtain ⟨hlaid, hwon, _⟩ := LineSide.layRatio_lowest point
  refine ⟨oddsWithin_of_le_layLimit, fun h => ?_⟩
  have hcap : oddsCap table.odds point base = oddsLimit table point base := by
    rw [oddsCap_eq_min]
    refine Int.min_eq_right (le_trans ?_ hfits)
    exact le_mul_of_one_le_right (oddsLimit_nonneg _ _ _) hlaid
  rw [layLimit, hcap, boundedMul, Int.min_eq_right hfits, Int.le_ediv_iff_mul_le (by omega)]
  exact h

/-- Laid odds are a clean amount, whether or not the product has fitted. -/
theorem layOdds_mem_cleanOdds (point : Nat) (base : Int) (raw : Binary64) (table : TableRules) :
    layOdds point base raw table ∈ cleanOdds .dont point base raw table := by
  cases hpoint : isPoint point with
  | false =>
    rw [layOdds_eq_zero hpoint]
    exact (isGreatest_zero hpoint).1
  | true =>
    rw [layOdds_eq hpoint]
    exact roundDown_mem_cleanOdds (layLimit_nonneg _ _ _) fun n => oddsWithin_of_le_layLimit

/-- Laid odds are the greatest clean amount if the product fits. -/
theorem isGreatest_layOdds
    (hfits : oddsLimit table point base * (LineSide.layRatio point).1 ≤ Binary64.maxInt) :
    IsGreatest (cleanOdds .dont point base raw table) (layOdds point base raw table) := by
  cases hpoint : isPoint point with
  | false =>
    rw [layOdds_eq_zero hpoint]
    exact isGreatest_zero hpoint
  | true =>
    rw [layOdds_eq hpoint]
    exact isGreatest_cleanOdds (layLimit_nonneg _ _ _) (fun n _ => le_layLimit_iff hfits)
      (layLimit_le_maxInt _ _ _)

/-! ### More money -/

/-- A product that ends at the greatest 64-bit integer does not go down
in its first factor. -/
theorem boundedMul_mono {a a' b : Int} (h : a ≤ a') (hb : 0 ≤ b) :
    boundedMul a b ≤ boundedMul a' b :=
  min_le_min_left _ (Int.mul_le_mul_of_nonneg_right h hb)

/-- A greater line bet has no lower cap. -/
theorem oddsCap_mono (h : base ≤ more) :
    oddsCap table.odds point base ≤ oddsCap table.odds point more :=
  min_le_min_left _ (oddsLimit_mono h)

/-- A greater line bet has no lower limit on what may be laid. -/
theorem layLimit_mono (h : base ≤ more) :
    layLimit table point base ≤ layLimit table point more := by
  obtain ⟨hlaid, hwon, _⟩ := LineSide.layRatio_lowest point
  exact Int.ediv_le_ediv (by omega) (boundedMul_mono (oddsCap_mono h) (by omega))

/-- Taken odds do not go down with the raw amount or the line bet. -/
theorem passOdds_mono (hraw : wholeDollars raw ≤ wholeDollars greater) (hbase : base ≤ more) :
    passOdds point base raw table ≤ passOdds point more greater table := by
  cases hpoint : isPoint point with
  | false => rw [passOdds_eq_zero hpoint, passOdds_eq_zero hpoint]
  | true =>
    rw [passOdds, passOdds, passStep_eq hpoint]
    exact roundDown_mono (LineSide.one_le_oddsStep _ _ _) (min_le_min hraw (oddsCap_mono hbase))

/-- Laid odds do not go down with the raw amount or the line bet. -/
theorem layOdds_mono (hraw : wholeDollars raw ≤ wholeDollars greater) (hbase : base ≤ more) :
    layOdds point base raw table ≤ layOdds point more greater table := by
  cases hpoint : isPoint point with
  | false => rw [layOdds_eq_zero hpoint, layOdds_eq_zero hpoint]
  | true =>
    rw [layOdds_eq hpoint, layOdds_eq hpoint]
    exact roundDown_mono (LineSide.one_le_oddsStep _ _ _)
      (min_le_min hraw (layLimit_mono hbase))

/-- Legal odds behind a line bet, for every raw amount. Taken odds are the
greatest clean amount. Laid odds are a clean amount, so they win no more
than the limit, and the greatest as long as the limit on what they win
still fits when it is turned into one on the amount. Off bubble tables
both win whole dollars. There are none on what is no point, and neither
goes down as the raw amount or the line bet goes up. -/
theorem odds_greatest_clean (point : Nat) (base : Int) (raw : Binary64) (table : TableRules) :
    IsGreatest (cleanOdds .pass point base raw table) (passOdds point base raw table) ∧
      layOdds point base raw table ∈ cleanOdds .dont point base raw table ∧
      LineSide.dont.winnings point (layOdds point base raw table) ≤ oddsLimit table point base ∧
      (oddsLimit table point base * (LineSide.layRatio point).1 ≤ Binary64.maxInt →
        IsGreatest (cleanOdds .dont point base raw table) (layOdds point base raw table)) ∧
      (table.bubble = false →
        (∃ dollars : Int, LineSide.pass.winnings point (passOdds point base raw table) = dollars) ∧
          ∃ dollars : Int,
            LineSide.dont.winnings point (layOdds point base raw table) = dollars) ∧
      (isPoint point = false →
        passOdds point base raw table = 0 ∧ layOdds point base raw table = 0) ∧
      (∀ greater, raw.lessEqual greater = true →
        passOdds point base raw table ≤ passOdds point base greater table ∧
          layOdds point base raw table ≤ layOdds point base greater table) ∧
      ∀ more, base ≤ more →
        passOdds point base raw table ≤ passOdds point more raw table ∧
          layOdds point base raw table ≤ layOdds point more raw table := by
  have htaken := isGreatest_passOdds point base raw table
  have hlaid := layOdds_mem_cleanOdds point base raw table
  have hwin := LineSide.oddsWithin_dont_iff.1 hlaid.2.2.2.2
  refine ⟨htaken, hlaid, hwin, isGreatest_layOdds, fun hbubble => ?_, fun hpoint => ?_, ?_, ?_⟩
  · exact ⟨(LineSide.whole_winnings_iff hbubble).2 htaken.1.2.1,
      (LineSide.whole_winnings_iff hbubble).2 hlaid.2.1⟩
  · exact ⟨passOdds_eq_zero hpoint, layOdds_eq_zero hpoint⟩
  · intro greater hraw
    have hdollars := wholeDollars_mono hraw
    exact ⟨passOdds_mono hdollars le_rfl, layOdds_mono hdollars le_rfl⟩
  · exact fun more hbase => ⟨passOdds_mono le_rfl hbase, layOdds_mono le_rfl hbase⟩

/-- Twenty-three dollars behind a line bet of ten with the point on the
six. -/
theorem odds_greatest_clean_six :
    IsGreatest (cleanOdds .pass 6 10 (.ofInt 23) ⟨false, 10, .threeFourFive⟩) 20 ∧
      IsGreatest (cleanOdds .dont 6 10 (.ofInt 23) ⟨false, 10, .threeFourFive⟩) 18 ∧
      20 ≤ passOdds 6 10 (.infinite false) ⟨false, 10, .threeFourFive⟩ ∧
      18 ≤ layOdds 6 20 (.ofInt 23) ⟨false, 10, .threeFourFive⟩ := by
  have htaken : passOdds 6 10 (.ofInt 23) ⟨false, 10, .threeFourFive⟩ = 20 := by decide +kernel
  have hlaid : layOdds 6 10 (.ofInt 23) ⟨false, 10, .threeFourFive⟩ = 18 := by decide +kernel
  obtain ⟨hpass, _, _, hdont, _, _, hraw, hbase⟩ :=
    odds_greatest_clean 6 10 (.ofInt 23) ⟨false, 10, .threeFourFive⟩
  rw [htaken] at hpass hraw
  rw [hlaid] at hdont hbase
  exact ⟨hpass, hdont (by decide), (hraw (.infinite false) (by decide +kernel)).1,
    (hbase 20 (by decide)).2⟩

end Legal

end CrapsStrategy
