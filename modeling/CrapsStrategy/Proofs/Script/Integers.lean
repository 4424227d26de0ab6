import CrapsStrategy.Proofs.Script.Operation
import Mathlib.Algebra.Order.Field.Basic
import Mathlib.Data.Rat.Floor
import Mathlib.Tactic.Linarith

/-!
# `CrapsStrategy.Proofs.Script.Integers`: arithmetic on integers

`BinaryOp.result?` is the exact result of an operator on integers of any
size, where `//` is the floor of the rational quotient and `%` what it
leaves. Operators on 64-bit integers are told by it (`intOperation_eq`):
they give the exact result where it fits and report an overflow where it
does not.

There are two exceptions, `ReportedInVain`. The remainder of the least
integer by -1 is zero, and powers of 0, 1 and -1 fit for all exponents,
but the first fails with its quotient, and exponents of more than 32
bits fail for all bases.

Machine division cuts off toward zero. What it leaves is on the side of
the dividend, a floor leaves a rest on the side of the divisor
(`IsRest`). One step to the next quotient leads from one to the other,
and no rest is that large that this step could overflow.
-/

set_option autoImplicit false

namespace CrapsStrategy

/-! ### The range -/

/-- Whether an integer fits 64 bits. -/
def Fits (i : Int) : Prop :=
  Binary64.minInt ≤ i ∧ i ≤ Binary64.maxInt

instance (i : Int) : Decidable (Fits i) :=
  inferInstanceAs (Decidable (_ ∧ _))

/-- The range with its bounds written out, which is the form that
`omega` can use. -/
theorem fits_iff {i : Int} : Fits i ↔ -9223372036854775808 ≤ i ∧ i < 9223372036854775808 := by
  unfold Fits Binary64.minInt Binary64.maxInt
  omega

/-- A machine integer is in the range to begin with. -/
theorem fits_toInt (v : Int64) : Fits v.toInt :=
  fits_iff.2 ⟨v.le_toInt, v.toInt_lt⟩

/-- A result that passes the check of its range is the exact one. -/
theorem checked_eq_ok_iff {i : Int} {v : Int64} : checked i = .ok v ↔ v.toInt = i := by
  rw [checked, ite_error_eq_ok]
  constructor
  · rintro ⟨hfits, h⟩
    cases h
    obtain ⟨hlow, hhigh⟩ := fits_iff.1 hfits
    exact Int64.toInt_ofInt_of_le hlow hhigh
  · rintro rfl
    exact ⟨fits_toInt v, by rw [Int64.ofInt_toInt]⟩

/-- The check reports what does not fit. -/
theorem checked_eq_overflow {i : Int} (h : ¬ Fits i) : checked i = .error .overflow :=
  if_neg h

/-- The check gives what fits. -/
theorem exists_checked_eq_ok {i : Int} (h : Fits i) : ∃ v, checked i = .ok v :=
  ⟨_, if_pos h⟩

/-! ### Powers -/

/-- From two on, by size, no base has a power of 64 or more that fits:
it is doubled at each step at least. -/
theorem not_fits_pow {a : Int} (ha : 2 ≤ a.natAbs) {n : Nat} (hn : 64 ≤ n) : ¬ Fits (a ^ n) := by
  have hlarge : 2 ^ 64 ≤ (a ^ n).natAbs := by
    rw [Int.natAbs_pow]
    calc 2 ^ 64 ≤ 2 ^ n := Nat.pow_le_pow_right (by decide) hn
      _ ≤ a.natAbs ^ n := Nat.pow_le_pow_left ha n
  rw [fits_iff]
  omega

/-- The powers of -1 go by the parity of the exponent, as the machine
has them. -/
theorem neg_one_pow_eq (n : Nat) : (-1 : Int) ^ n = if n % 2 = 0 then 1 else -1 := by
  split
  · rename_i heven
    exact Even.neg_one_pow (Nat.even_iff.2 heven)
  · rename_i hodd
    exact Odd.neg_one_pow (Nat.odd_iff.2 (Nat.mod_two_ne_zero.1 hodd))

/-- The power that is computed is the exact one. -/
theorem checkedPower_eq (a : Int64) (n : Nat) : checkedPower a n = checked (a.toInt ^ n) := by
  unfold checkedPower
  dsimp only
  by_cases hzero : a.toInt = 0
  · rw [if_pos hzero, hzero, zero_pow_eq]
  rw [if_neg hzero]
  by_cases hone : a.toInt = 1
  · rw [if_pos hone, hone, one_pow]
  rw [if_neg hone]
  by_cases hminus : a.toInt = -1
  · rw [if_pos hminus, hminus, neg_one_pow_eq]
  rw [if_neg hminus]
  by_cases hfew : n < 64
  · rw [if_pos hfew]
    rfl
  · rw [if_neg hfew, checked_eq_overflow (not_fits_pow (by omega) (by omega))]

/-! ### Floors -/

/-- What may be left of a division that is rounded down: less than the
divisor and on its side. -/
def IsRest (divisor rest : Int) : Prop :=
  0 ≤ rest ∧ rest < divisor ∨ divisor < rest ∧ rest ≤ 0

/-- A rest of the division tells the floor of the quotient. -/
theorem floor_div_eq {a b q r : Int} (h : b * q + r = a) (hrest : IsRest b r) :
    ((a : Rat) / b).floor = q := by
  have hvalue : (b : Rat) * q + r = a := by exact_mod_cast h
  refine le_antisymm (Int.lt_add_one_iff.1 ?_) ?_
  · -- The quotient exceeds its floor by the rest over the divisor, which is
    -- less than one and not negative with either sign of the divisor.
    rw [Rat.floor_lt_iff, Int.cast_add, Int.cast_one]
    rcases hrest with ⟨hr, hlt⟩ | ⟨hlt, hr⟩
    · have hb : (0 : Rat) < b := by exact_mod_cast hr.trans_lt hlt
      have hless : (r : Rat) < b := by exact_mod_cast hlt
      rw [div_lt_iff₀ hb]
      linarith
    · have hb : (b : Rat) < 0 := by exact_mod_cast hlt.trans_le hr
      have hless : (b : Rat) < r := by exact_mod_cast hlt
      rw [div_lt_iff_of_neg hb]
      linarith
  · rw [Rat.le_floor_iff]
    rcases hrest with ⟨hr, hlt⟩ | ⟨hlt, hr⟩
    · have hb : (0 : Rat) < b := by exact_mod_cast hr.trans_lt hlt
      have hnonneg : (0 : Rat) ≤ r := by exact_mod_cast hr
      rw [le_div_iff₀ hb]
      linarith
    · have hb : (b : Rat) < 0 := by exact_mod_cast hlt.trans_le hr
      have hnonpos : (r : Rat) ≤ 0 := by exact_mod_cast hr
      rw [le_div_iff_of_neg hb]
      linarith

/-- What a division toward zero leaves is less than the divisor and on
the side of the dividend. -/
theorem tmod_bounds (a : Int) {b : Int} (hb : b ≠ 0) :
    (a.tmod b).natAbs < b.natAbs ∧ (0 ≤ a → 0 ≤ a.tmod b) ∧ (a ≤ 0 → a.tmod b ≤ 0) := by
  refine ⟨?_, Int.tmod_nonneg b, fun ha => ?_⟩
  · rw [Int.natAbs_tmod]
    exact Nat.mod_lt _ (Int.natAbs_pos.2 hb)
  · have hopposite := Int.tmod_nonneg b (Int.neg_nonneg_of_nonpos ha)
    rw [Int.neg_tmod] at hopposite
    omega

/-- The remainder of a quotient cut off toward zero is a rest of the
floor if it is nothing or on the side of the divisor. -/
theorem isRest_tmod {a b : Int} (hb : b ≠ 0) (h : a.tmod b ≠ 0 → (a.tmod b < 0 ↔ b < 0)) :
    IsRest b (a.tmod b) := by
  have hless := (tmod_bounds a hb).1
  unfold IsRest
  omega

/-- A remainder on the other side of the divisor is one divisor away
from a rest of the floor. -/
theorem isRest_tmod_add {a b : Int} (hb : b ≠ 0) (hrest : a.tmod b ≠ 0)
    (h : ¬ (a.tmod b < 0 ↔ b < 0)) : IsRest b (a.tmod b + b) := by
  have hless := (tmod_bounds a hb).1
  unfold IsRest
  omega

/-- The quotient toward zero is the floor where its rest is nothing or
on the side of the divisor. -/
theorem floor_eq_tdiv {a b : Int} (hb : b ≠ 0) (h : a.tmod b ≠ 0 → (a.tmod b < 0 ↔ b < 0)) :
    ((a : Rat) / b).floor = a.tdiv b :=
  floor_div_eq (Int.mul_tdiv_add_tmod a b) (isRest_tmod hb h)

/-- Where the rest is on the other side, the quotient toward zero is one
above the floor. -/
theorem floor_eq_tdiv_sub_one {a b : Int} (hb : b ≠ 0) (hrest : a.tmod b ≠ 0)
    (h : ¬ (a.tmod b < 0 ↔ b < 0)) : ((a : Rat) / b).floor = a.tdiv b - 1 := by
  have hexact := Int.mul_tdiv_add_tmod a b
  refine floor_div_eq ?_ (isRest_tmod_add hb hrest h)
  linarith

/-- What the floor leaves is a rest. -/
theorem isRest_sub_floor (a : Int) {b : Int} (hb : b ≠ 0) :
    IsRest b (a - b * ((a : Rat) / b).floor) := by
  have hexact := Int.mul_tdiv_add_tmod a b
  by_cases hside : a.tmod b ≠ 0 → (a.tmod b < 0 ↔ b < 0)
  · rw [floor_eq_tdiv hb hside, ← Int.tmod_def]
    exact isRest_tmod hb hside
  · obtain ⟨hrest, hother⟩ := Classical.not_imp.1 hside
    have hleft : a - b * (a.tdiv b - 1) = a.tmod b + b := by linarith
    rw [floor_eq_tdiv_sub_one hb hrest hother, hleft]
    exact isRest_tmod_add hb hrest hother

/-! ### Machine division -/

section Machine

variable {a b q r : Int64}

/-- A machine sum whose exact value fits does not wrap around. -/
theorem toInt_add_of_fits (h : Fits (a.toInt + b.toInt)) : (a + b).toInt = a.toInt + b.toInt := by
  rw [fits_iff] at h
  rw [Int64.toInt_add, Int.bmod_eq_of_le (by omega) (by omega)]

/-- A machine difference whose exact value fits does not wrap around. -/
theorem toInt_sub_of_fits (h : Fits (a.toInt - b.toInt)) : (a - b).toInt = a.toInt - b.toInt := by
  rw [fits_iff] at h
  rw [Int64.toInt_sub, Int.bmod_eq_of_le (by omega) (by omega)]

/-- The test of two signs, in terms of the exact values. Zero counts as
positive. -/
theorem signsDiffer_iff : signsDiffer a b = true ↔ ¬ (a.toInt < 0 ↔ b.toInt < 0) := by
  have hsign : ∀ c : Int64, c < 0 ↔ c.toInt < 0 := fun c => by
    rw [Int64.lt_iff_toInt_lt, Int64.toInt_zero]
  rw [signsDiffer, bne_iff_ne, Ne, decide_eq_decide, hsign, hsign]

/-- The machine leaves a rest exactly where the exact division does. -/
theorem mod_ne_zero_iff : a % b ≠ 0 ↔ a.toInt.tmod b.toInt ≠ 0 := by
  rw [← Int64.toInt_mod, Ne, ← Int64.toInt_inj, Int64.toInt_zero]

/-- A divisor that leaves a rest makes the quotient half as large at
least. -/
theorem natAbs_tdiv_le {a b : Int} (hone : b ≠ 1) (hminus : b ≠ -1) :
    (a.tdiv b).natAbs ≤ a.natAbs / 2 := by
  rw [Int.natAbs_tdiv]
  show a.natAbs / b.natAbs ≤ _
  rcases Nat.eq_zero_or_pos b.natAbs with hzero | hpos
  · rw [hzero, Nat.div_zero]
    exact Nat.zero_le _
  · exact Nat.div_le_div_left (by omega) (by decide)

/-- One quotient alone does not fit. -/
theorem fits_tdiv_iff : Fits (a.toInt.tdiv b.toInt) ↔ ¬ (a = Int64.minValue ∧ b = -1) := by
  have ha := fits_toInt a
  rw [← Int64.toInt_inj, ← Int64.toInt_inj, Int64.toInt_minValue]
  have hminus : (-1 : Int64).toInt = -1 := by decide
  rw [hminus]
  rw [fits_iff] at ha ⊢
  by_cases hone : b.toInt = 1
  · rw [hone, Int.tdiv_one]
    omega
  by_cases hless : b.toInt = -1
  · rw [hless, Int.tdiv_neg, Int.tdiv_one]
    omega
  · have hhalf := natAbs_tdiv_le (a := a.toInt) hone hless
    omega

/-- A machine quotient that is given is the one toward zero. -/
theorem toInt_of_checkedQuotient (h : checkedQuotient a b = .ok q) :
    q.toInt = a.toInt.tdiv b.toInt :=
  checked_eq_ok_iff.1 h

/-- The step down to the floor does not overflow. -/
theorem toInt_quotient_sub_one (h : checkedQuotient a b = .ok q) (hrest : a % b ≠ 0) :
    (q - 1).toInt = q.toInt - 1 := by
  have ha := fits_toInt a
  have hquotient := toInt_of_checkedQuotient h
  rw [mod_ne_zero_iff] at hrest
  have hhalf := natAbs_tdiv_le (a := a.toInt) (b := b.toInt)
    (fun hone => hrest (by rw [hone, Int.tmod_one]))
    (fun hminus => hrest (by rw [hminus, Int.tmod_neg, Int.tmod_one]))
  refine toInt_sub_of_fits ?_
  rw [Int64.toInt_one]
  rw [fits_iff] at ha ⊢
  omega

/-- Nor does the step to a rest on the other side. -/
theorem toInt_rest_add (h : signsDiffer r b = true) : (r + b).toInt = r.toInt + b.toInt := by
  have hr := fits_toInt r
  have hb := fits_toInt b
  rw [signsDiffer_iff] at h
  refine toInt_add_of_fits ?_
  rw [fits_iff] at hr hb ⊢
  omega

/-- The quotient that is corrected is the exact floor. -/
theorem floorQuotient_eq (hb : b.toInt ≠ 0) :
    floorQuotient a b = checked ((a.toInt : Rat) / b.toInt).floor := by
  obtain ⟨_, hpos, hneg⟩ := tmod_bounds a.toInt hb
  by_cases hfits : Fits (a.toInt.tdiv b.toInt)
  · obtain ⟨q, hq⟩ := exists_checked_eq_ok hfits
    have hquotient : checkedQuotient a b = .ok q := hq
    rw [floorQuotient, hquotient]
    refine (checked_eq_ok_iff.2 ?_).symm
    -- Where a rest is left, it has the sign of the dividend.
    by_cases hstep : a % b ≠ 0 ∧ signsDiffer a b = true
    · rw [if_pos hstep, toInt_quotient_sub_one hquotient hstep.1,
        toInt_of_checkedQuotient hquotient]
      rw [mod_ne_zero_iff, signsDiffer_iff] at hstep
      exact (floor_eq_tdiv_sub_one hb hstep.1 (by omega)).symm
    · rw [if_neg hstep, toInt_of_checkedQuotient hquotient]
      rw [mod_ne_zero_iff, signsDiffer_iff] at hstep
      exact (floor_eq_tdiv hb (by omega)).symm
  · -- The one quotient that does not fit leaves no rest.
    have hquotient : checkedQuotient a b = .error .overflow := checked_eq_overflow hfits
    rw [floorQuotient, hquotient]
    rw [fits_tdiv_iff, not_not] at hfits
    obtain ⟨rfl, rfl⟩ := hfits
    decide +kernel

/-- The rest that is corrected is what the floor leaves, where there is
a quotient. -/
theorem floorRemainder_eq (hb : b.toInt ≠ 0) (h : ¬ (a = Int64.minValue ∧ b = -1)) :
    floorRemainder a b =
      checked (a.toInt - b.toInt * ((a.toInt : Rat) / b.toInt).floor) := by
  have hexact := Int.mul_tdiv_add_tmod a.toInt b.toInt
  obtain ⟨q, hq⟩ := exists_checked_eq_ok (fits_tdiv_iff.2 h)
  have hquotient : checkedQuotient a b = .ok q := hq
  rw [floorRemainder, checkedRemainder, hquotient]
  refine (checked_eq_ok_iff.2 ?_).symm
  by_cases hstep : a % b ≠ 0 ∧ signsDiffer (a % b) b = true
  · rw [if_pos hstep, toInt_rest_add hstep.2, Int64.toInt_mod]
    rw [mod_ne_zero_iff, signsDiffer_iff, Int64.toInt_mod] at hstep
    rw [floor_eq_tdiv_sub_one hb hstep.1 hstep.2]
    linarith
  · rw [if_neg hstep, Int64.toInt_mod]
    rw [mod_ne_zero_iff, signsDiffer_iff, Int64.toInt_mod] at hstep
    rw [floor_eq_tdiv hb (by omega)]
    exact Int.tmod_def _ _

end Machine

/-! ### Exact results -/

namespace BinaryOp

/-- The exact result of an operator on integers. `/` and powers below
zero leave the integers, and nothing is divided by zero. -/
def result? (op : BinaryOp) (a b : Int) : Option Int :=
  match op with
  | add => some (a + b)
  | sub => some (a - b)
  | mul => some (a * b)
  | div => none
  | floorDiv => if b = 0 then none else some ((a : Rat) / b).floor
  | mod => if b = 0 then none else some (a - b * ((a : Rat) / b).floor)
  | pow => if 0 ≤ b then some (a ^ b.toNat) else none

/-- An overflow is reported, and yet the exact result fits: the
remainder of the least integer by -1, and powers of 0, 1 and -1 with an
exponent of more than 32 bits. -/
def ReportedInVain (op : BinaryOp) (a b : Int64) : Prop :=
  op = mod ∧ a = Int64.minValue ∧ b = -1 ∨
    op = pow ∧ 4294967295 < b.toInt ∧ a.toInt.natAbs ≤ 1

end BinaryOp

variable {op : BinaryOp} {a b : Int64} {r : Int}

/-- A machine integer is zero where its value is. The operators test the
first, and `result?` tests the second. -/
theorem eq_zero_iff_toInt (b : Int64) : b = 0 ↔ b.toInt = 0 := by
  rw [← Int64.toInt_inj, Int64.toInt_zero]

/-- Operators on 64-bit integers compute what has an exact result
exactly, and then look whether it fits. -/
theorem intOperation_eq (h : op.result? a.toInt b.toInt = some r)
    (hvain : ¬ op.ReportedInVain a b) :
    intOperation op a b = do return .int (← checked r) := by
  unfold intOperation
  cases op with
  | add | sub | mul =>
    cases h
    rfl
  | div => cases h
  | floorDiv =>
    obtain ⟨hb, hr⟩ := Option.ite_none_left_eq_some.1 h
    cases hr
    dsimp only
    rw [if_neg (mt (eq_zero_iff_toInt b).1 hb), floorQuotient_eq hb]
  | mod =>
    obtain ⟨hb, hr⟩ := Option.ite_none_left_eq_some.1 h
    cases hr
    have hquotient : ¬ (a = Int64.minValue ∧ b = -1) := fun hmin => hvain (.inl ⟨rfl, hmin⟩)
    dsimp only
    rw [if_neg (mt (eq_zero_iff_toInt b).1 hb), floorRemainder_eq hb hquotient]
  | pow =>
    obtain ⟨hb, hr⟩ := Option.ite_none_right_eq_some.1 h
    cases hr
    dsimp only
    rw [if_neg (not_lt.2 hb), checkedPower_eq]
    by_cases hbits : b.toInt ≤ 4294967295
    · rw [if_pos hbits]
    · -- So large an exponent is too much for all other bases.
      have hbase : 2 ≤ a.toInt.natAbs := by
        by_contra hsmall
        exact hvain (.inr ⟨rfl, not_le.1 hbits, by omega⟩)
      rw [if_neg hbits, checked_eq_overflow (not_fits_pow hbase (by omega))]
      rfl

/-- In both exceptions the operator does fail, although the result would
fit. -/
theorem intOperation_of_reportedInVain (h : op.ReportedInVain a b) :
    intOperation op a b = .error .overflow := by
  rcases h with ⟨rfl, rfl, rfl⟩ | ⟨rfl, hbits, _⟩
  · rfl
  · unfold intOperation
    dsimp only
    rw [if_neg (by omega), if_neg (by omega)]

/-- Only a division by zero has no exact floor and no rest. -/
theorem eq_zero_of_result_none {a b : Int} (hop : op = .floorDiv ∨ op = .mod)
    (h : op.result? a b = none) : b = 0 := by
  by_contra hb
  rcases hop with rfl | rfl
  · rw [BinaryOp.result?, if_neg hb] at h
    cases h
  · rw [BinaryOp.result?, if_neg hb] at h
    cases h

/-- Where the integers have no result, the operator goes over to doubles
or complains about the divisor. -/
theorem doubleOutcome_of_result_none (h : op.result? a.toInt b.toInt = none) :
    DoubleOutcome op (intOperation op a b) := by
  unfold intOperation
  cases op with
  | add | sub | mul => cases h
  | div => exact doubleOutcome_floatOperation _ _ _
  | floorDiv =>
    dsimp only
    rw [if_pos ((eq_zero_iff_toInt b).2 (eq_zero_of_result_none (.inl rfl) h))]
    exact .inl rfl
  | mod =>
    dsimp only
    rw [if_pos ((eq_zero_iff_toInt b).2 (eq_zero_of_result_none (.inr rfl) h))]
    exact .inl rfl
  | pow =>
    have hb : b.toInt < 0 := by
      by_contra hb
      rw [BinaryOp.result?, if_pos (not_lt.1 hb)] at h
      cases h
    dsimp only
    rw [if_pos hb]
    exact doubleOutcome_floatOperation _ _ _

/-- The three ends of an operator on integers. -/
theorem intOperation_cases (op : BinaryOp) (a b : Int64) :
    (∃ v, intOperation op a b = .ok (.int v) ∧ op.result? a.toInt b.toInt = some v.toInt) ∨
      (intOperation op a b = .error .overflow ∧
        ((∃ r, op.result? a.toInt b.toInt = some r ∧ ¬ Fits r) ∨ op.ReportedInVain a b)) ∨
      (DoubleOutcome op (intOperation op a b) ∧ op.result? a.toInt b.toInt = none) := by
  cases hexact : op.result? a.toInt b.toInt with
  | none => exact .inr (.inr ⟨doubleOutcome_of_result_none hexact, rfl⟩)
  | some r =>
    by_cases hvain : op.ReportedInVain a b
    · exact .inr (.inl ⟨intOperation_of_reportedInVain hvain, .inr hvain⟩)
    rw [intOperation_eq hexact hvain]
    by_cases hfits : Fits r
    · obtain ⟨v, hv⟩ := exists_checked_eq_ok hfits
      rw [hv]
      exact .inl ⟨v, rfl, by rw [checked_eq_ok_iff.1 hv]⟩
    · rw [checked_eq_overflow hfits]
      exact .inr (.inl ⟨rfl, .inl ⟨r, rfl, hfits⟩⟩)

/-- An integer that is given is the exact result. -/
theorem result_of_intOperation {v : Int64} (h : intOperation op a b = .ok (.int v)) :
    op.result? a.toInt b.toInt = some v.toInt := by
  rcases intOperation_cases op a b with ⟨w, hok, hexact⟩ | ⟨herror, _⟩ | ⟨houtcome, _⟩
  · rw [hok] at h
    cases h
    exact hexact
  · rw [herror] at h
    cases h
  · rw [h] at houtcome
    cases houtcome

/-- A division by zero is reported exactly for a divisor of zero. -/
theorem divisionByZero_iff (hop : op = .floorDiv ∨ op = .mod) :
    intOperation op a b = .error .divisionByZero ↔ b = 0 := by
  constructor
  · intro hzero
    rcases intOperation_cases op a b with ⟨w, hok, _⟩ | ⟨herror, _⟩ | ⟨_, hnone⟩
    · rw [hok] at hzero
      cases hzero
    · rw [herror] at hzero
      cases hzero
    · exact (eq_zero_iff_toInt b).2 (eq_zero_of_result_none hop hnone)
  · intro hb
    rcases hop with rfl | rfl
    · exact if_pos hb
    · exact if_pos hb

/-- An integer that comes out of the check is what went into it. -/
theorem eq_of_checked_result {v : Int64}
    (h : (do return .int (← checked r) : Except EvalFault Value) = .ok (.int v)) : v.toInt = r := by
  obtain ⟨w, hw, hv⟩ := bind_eq_ok.1 h
  cases hv
  exact checked_eq_ok_iff.1 hw

/-- The magnitude is taken exactly and checked, since the least integer
has none that fits. -/
theorem abs_int (a : Int64) :
    Builtin.abs.apply [.int a] = do return .int (← checked |a.toInt|) := by
  rw [Int.abs_eq_natAbs]
  rfl

/-- Arithmetic on 64-bit integers is never wrong. An integer that an
operator gives is the exact result, and one that `%` gives is less than
the divisor and on its side; a negated integer and a magnitude are exact
too. Neither step from a quotient toward zero to the floor overflows.
`//` and `%` complain about a division by zero exactly there. -/
theorem integers_exact (a b : Int64) :
    (∀ op v, intOperation op a b = .ok (.int v) →
        op.result? a.toInt b.toInt = some v.toInt) ∧
      (∀ v, intOperation .mod a b = .ok (.int v) → IsRest b.toInt v.toInt) ∧
      (∀ v, unaryOperation .neg (.int a) = .ok (.int v) → v.toInt = -a.toInt) ∧
      (∀ v, Builtin.abs.apply [.int a] = .ok (.int v) → v.toInt = |a.toInt|) ∧
      (∀ q, checkedQuotient a b = .ok q → a % b ≠ 0 → (q - 1).toInt = q.toInt - 1) ∧
      (∀ r, checkedRemainder a b = .ok r → signsDiffer r b = true →
        (r + b).toInt = r.toInt + b.toInt) ∧
      ∀ op, op = .floorDiv ∨ op = .mod →
        (intOperation op a b = .error .divisionByZero ↔ b = 0) := by
  refine ⟨fun op v => result_of_intOperation, ?_, ?_, ?_, fun q => toInt_quotient_sub_one,
    fun r _ => toInt_rest_add, fun op => divisionByZero_iff⟩
  · intro v h
    obtain ⟨hb, hrest⟩ := Option.ite_none_left_eq_some.1 (result_of_intOperation h)
    rw [← Option.some.inj hrest]
    exact isRest_sub_floor _ hb
  · exact fun v h => eq_of_checked_result h
  · intro v h
    rw [abs_int] at h
    exact eq_of_checked_result h

/-- Seven divided by minus two is minus four, with a rest of minus one. -/
theorem integers_exact_seven :
    BinaryOp.result? .floorDiv 7 (-2) = some (-4) ∧ IsRest (-2) (-1) := by
  obtain ⟨hexact, hrest, _⟩ := integers_exact 7 (-2)
  exact ⟨hexact .floorDiv (-4) rfl, hrest (-1) rfl⟩

/-- An overflow is reported where the exact result does not fit, and in
vain in two cases. In all others a result that fits is given. -/
theorem overflow_reported_iff (op : BinaryOp) (a b : Int64) :
    (intOperation op a b = .error .overflow ↔
        (∃ r, op.result? a.toInt b.toInt = some r ∧ ¬ Fits r) ∨ op.ReportedInVain a b) ∧
      ∀ r, op.result? a.toInt b.toInt = some r → Fits r → ¬ op.ReportedInVain a b →
        ∃ v, intOperation op a b = .ok (.int v) ∧ v.toInt = r := by
  refine ⟨⟨fun hoverflow => ?_, ?_⟩, ?_⟩
  · rcases intOperation_cases op a b with ⟨v, hok, _⟩ | ⟨_, hreason⟩ | ⟨houtcome, _⟩
    · rw [hok] at hoverflow
      cases hoverflow
    · exact hreason
    · rw [hoverflow] at houtcome
      rcases houtcome with hfault | hfault
      · cases hfault
      · cases hfault
  · rintro (⟨r, hexact, hfits⟩ | hvain)
    · by_cases hvain : op.ReportedInVain a b
      · exact intOperation_of_reportedInVain hvain
      · rw [intOperation_eq hexact hvain, checked_eq_overflow hfits]
        rfl
    · exact intOperation_of_reportedInVain hvain
  · intro r hexact hfits hvain
    obtain ⟨v, hv⟩ := exists_checked_eq_ok hfits
    refine ⟨v, ?_, checked_eq_ok_iff.1 hv⟩
    rw [intOperation_eq hexact hvain, hv]
    rfl

/-- The squares on both sides of the limit. -/
theorem overflow_reported_squares :
    intOperation .mul 3037000500 3037000500 = .error .overflow ∧
      ∃ v, intOperation .mul 3037000499 3037000499 = .ok (.int v) ∧
        v.toInt = 9223372030926249001 := by
  obtain ⟨hreported, _⟩ := overflow_reported_iff .mul 3037000500 3037000500
  obtain ⟨_, hgiven⟩ := overflow_reported_iff .mul 3037000499 3037000499
  refine ⟨hreported.2 (.inl ⟨_, rfl, by decide⟩), hgiven _ rfl (by decide) ?_⟩
  rintro (⟨hop, _⟩ | ⟨hop, _⟩)
  · cases hop
  · cases hop

/-- The remainder of the least integer by -1 is zero, and every power of
one is one. -/
theorem fits_and_overflows :
    (BinaryOp.result? .mod Int64.minValue.toInt (-1 : Int64).toInt = some 0 ∧
        intOperation .mod Int64.minValue (-1) = .error .overflow) ∧
      BinaryOp.result? .pow (1 : Int64).toInt (4294967296 : Int64).toInt = some 1 ∧
      intOperation .pow 1 4294967296 = .error .overflow := by
  refine ⟨⟨by decide +kernel, rfl⟩, ?_, rfl⟩
  show some ((1 : Int) ^ 4294967296) = some 1
  rw [one_pow]

end CrapsStrategy
