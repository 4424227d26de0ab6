import CrapsStrategy.Proofs.Binary64.Rounding
import CrapsStrategy.Proofs.Script.Integers
import CrapsStrategy.Script.Eval

/-!
# `CrapsStrategy.Proofs.Script.Conversion`: integers from doubles

`int`, `floor`, `ceil` and `round` make an integer of a double. Each
picks one by its own rule (`Builtin.Rounds`), and the double that holds
it is exact, so all that is left is the range (`toInteger_eq`). The
range is compared as doubles, and the one integer too many that this
lets in is 2 ^ 63, which is then cut down to the greatest integer of 64
bits.
-/

set_option autoImplicit false

namespace CrapsStrategy

namespace Builtin

open Binary64

/-- The functions that make an integer of a double. -/
def conversions : List Builtin :=
  [int, floor, ceil, round]

/-- The integer that a conversion stands for: the greatest one below a
number, the least one above it, the one next to it toward zero, or the
nearest one. -/
def Rounds (f : Builtin) (q : Rat) (i : Int) : Prop :=
  match f with
  | floor => (i : Rat) ≤ q ∧ q < i + 1
  | ceil => (i : Rat) - 1 < q ∧ q ≤ i
  | int => (0 ≤ q → (i : Rat) ≤ q ∧ q < i + 1) ∧ (q ≤ 0 → (i : Rat) - 1 < q ∧ q ≤ i)
  | round => IsNearest q i
  | _ => False

/-- A conversion rounds a double and takes the integer of the result. -/
theorem exists_rounding {f : Builtin} (hf : f ∈ conversions) :
    ∃ pick, IsRounding pick ∧ (∀ q i, f.Rounds q i ↔ pick q = i) ∧
      ∀ x, f.apply [.float x] = do return .int (← toInteger (x.mapRat pick)) := by
  cases f with
  | int =>
    exact ⟨_, isRounding_truncate, fun _ _ => truncateRat_eq_iff.symm, fun _ => rfl⟩
  | floor =>
    exact ⟨_, isRounding_floor, fun _ _ => floor_eq_iff.symm, fun _ => rfl⟩
  | ceil =>
    exact ⟨_, isRounding_ceil, fun _ _ => ceil_eq_iff.symm, fun _ => rfl⟩
  | round =>
    exact ⟨_, isRounding_nearestEven, fun _ _ => nearestEven_eq_iff.symm, fun _ => rfl⟩
  | min | max | abs | float => exact absurd hf (by decide)

/-! ### The range -/

section Range

variable {x : Binary64} {i : Int}

/-- Neither NaN nor an infinity is converted. -/
theorem toInteger_of_isFinite (hx : x.isFinite = false) : toInteger x = .error (.notInteger x) :=
  if_neg fun h => by rw [hx] at h; cases h.1

/-- A clamp keeps what fits. -/
theorem clamp_of_fits (h : Fits i) : Binary64.clamp i = i := by
  unfold Binary64.clamp
  unfold Fits at h
  omega

/-- The integer of a whole double. The greatest one let in is one too
many, and is cut down. -/
theorem toInteger_eq (hx : x.IsInt i) :
    toInteger x =
      if Fits i ∨ i = 9223372036854775808 then .ok (Int64.ofInt (Binary64.clamp i))
      else .error (.notInteger x) := by
  obtain ⟨hfinite, hvalue⟩ := hx
  have hsaturate : x.saturate = Binary64.clamp i := by
    cases x with
    | nan | infinite negative => cases hfinite
    | finite negative significand exponent hcanonical =>
      show Binary64.clamp (truncateRat _) = _
      rw [hvalue, truncateRat_intCast]
  have hrange : (x.isFinite = true ∧ (Binary64.minInt : Rat) ≤ x.toRat ∧
      x.toRat ≤ 9223372036854775808) ↔ Fits i ∨ i = 9223372036854775808 := by
    rw [hvalue, fits_iff]
    have hlow : (Binary64.minInt : Rat) ≤ i ↔ -9223372036854775808 ≤ i := Int.cast_le
    have hhigh : (i : Rat) ≤ 9223372036854775808 ↔ i ≤ 9223372036854775808 := by
      exact_mod_cast Iff.rfl
    rw [hlow, hhigh]
    simp only [hfinite, true_and]
    omega
  rw [toInteger, hsaturate]
  exact if_congr hrange rfl rfl

end Range

/-! ### Calls -/

section Calls

variable {f : Builtin} {scope : Scope} {argument : Expr} {x : Binary64}

/-- A built-in is found under its name. -/
theorem ofName?_name (f : Builtin) : ofName? f.name = some f := by
  cases f <;> decide

/-- A call with one argument applies the function to its value. -/
theorem eval_call_single {v : Value} (h : argument.eval scope = .ok v) (position : Position) :
    (Expr.call (.name f.name) [argument] position).eval scope = evaluated (f.apply [v]) := by
  have hitems : Expr.evalItems scope [argument] = .ok [v] := by
    rw [Expr.evalItems, h, Expr.evalItems]
    rfl
  rw [Expr.eval, hitems]
  show Except.bind _ _ = _
  simp only [Except.bind, ofName?_name]

/-- The integer of a double by a conversion. It is the one that the
function stands for, or there is a fault, where it does not fit and
where the double is not finite. The fault is missing for 2 ^ 63 alone,
which does not fit and becomes the greatest integer. -/
theorem integer_of_double (hf : f ∈ conversions) (hx : argument.eval scope = .ok (.float x))
    (position : Position) :
    let result := (Expr.call (.name f.name) [argument] position).eval scope
    (x.isFinite = false → result = .error (.evaluation (.notInteger x))) ∧
      (x.isFinite = true → ∃! i, f.Rounds x.toRat i) ∧
      ∀ i, x.isFinite = true → f.Rounds x.toRat i →
        (Fits i → ∃ v, result = .ok (.int v) ∧ v.toInt = i) ∧
        (¬ Fits i → x.toRat ≠ 9223372036854775808 →
          result = .error (.evaluation (.notInteger x))) ∧
        (x.toRat = 9223372036854775808 → ¬ Fits i ∧ result = .ok (.int Int64.maxValue)) := by
  obtain ⟨pick, hpick, hrounds, happly⟩ := exists_rounding hf
  dsimp only
  rw [eval_call_single hx, happly]
  refine ⟨fun hinfinite => ?_, fun _ => ?_, fun i hfinite hi => ?_⟩
  · -- Nothing is rounded where the double is not finite.
    have hself : x.mapRat pick = x := by
      cases x with
      | nan | infinite negative => rfl
      | finite _ _ _ _ => cases hinfinite
    rw [hself, toInteger_of_isFinite hinfinite]
    rfl
  · exact ⟨pick x.toRat, (hrounds _ _).2 rfl, fun j hj => ((hrounds _ _).1 hj).symm⟩
  · obtain rfl := (hrounds _ _).1 hi
    have hwhole := toInteger_eq (hpick.isInt_mapRat hfinite)
    refine ⟨fun hfits => ?_, fun hfits hlimit => ?_, fun hlimit => ?_⟩
    · rw [hwhole, if_pos (.inl hfits), clamp_of_fits hfits]
      exact ⟨_, rfl, Int64.toInt_ofInt_of_le (fits_iff.1 hfits).1 (fits_iff.1 hfits).2⟩
    · -- Past the 64 bits a double is whole, so rounding has kept it.
      have hlarge := hpick.toRat_eq (x := x) (by rw [fits_iff] at hfits; omega)
      have hpicked : pick x.toRat ≠ 9223372036854775808 := by
        intro h
        rw [h] at hlarge
        exact hlimit (by exact_mod_cast hlarge)
      rw [hwhole, if_neg (by rintro (h | h) <;> contradiction), hpick.mapRat_eq_self hlarge]
      rfl
    · have hpicked : pick x.toRat = 9223372036854775808 := by
        rw [hlimit]
        exact hpick.intCast 9223372036854775808
      rw [hwhole, hpicked, if_pos (.inr rfl)]
      exact ⟨by decide, rfl⟩

/-- A half goes to the even integer below, and the double after 2 ^ 63
is refused. -/
theorem integer_of_double_half :
    (∃ v, (Expr.call (.name round.name) [.literal (.float (Binary64.round (5 / 2)))] ⟨1, 1⟩).eval
        (.ofVariables .empty) = .ok (.int v) ∧ v.toInt = 2) ∧
      (Expr.call (.name ceil.name) [.literal (.float (.ofInt 9223372036854777856))] ⟨1, 1⟩).eval
        (.ofVariables .empty) =
          .error (.evaluation (.notInteger (.ofInt 9223372036854777856))) := by
  have heval : ∀ x, (Expr.literal (.float x)).eval (.ofVariables .empty) = .ok (.float x) :=
    fun _ => rfl
  obtain ⟨_, _, hhalf⟩ :=
    integer_of_double (f := round) (by decide) (heval (Binary64.round (5 / 2))) ⟨1, 1⟩
  obtain ⟨_, _, hlarge⟩ :=
    integer_of_double (f := ceil) (by decide) (heval (.ofInt 9223372036854777856)) ⟨1, 1⟩
  have hvalue : (Binary64.round (5 / 2)).toRat = 5 / 2 := by decide +kernel
  have hnext : (Binary64.ofInt 9223372036854777856).toRat = 9223372036854777856 := by
    decide +kernel
  constructor
  · refine (hhalf 2 (by decide +kernel) ?_).1 (by decide)
    rw [hvalue]
    exact .inr ⟨by norm_num [abs_of_pos], by decide⟩
  · refine (hlarge 9223372036854777856 (by decide +kernel) ?_).2.1 (by decide) ?_
    · rw [hnext]
      exact ⟨by norm_num, by norm_num⟩
    · rw [hnext]
      norm_num

/-- The first integer that does not fit, and is converted all the
same. -/
theorem limit_converted :
    int.Rounds (Binary64.ofInt 9223372036854775808).toRat 9223372036854775808 ∧
      ¬ Fits 9223372036854775808 ∧
      int.apply [.float (.ofInt 9223372036854775808)] = .ok (.int Int64.maxValue) := by
  have hvalue :
      (Binary64.ofInt 9223372036854775808).toRat = ((9223372036854775808 : Int) : Rat) := by
    decide +kernel
  have hwhole : IsInt (.ofInt 9223372036854775808) 9223372036854775808 :=
    ⟨by decide +kernel, hvalue⟩
  obtain ⟨pick, hpick, hrounds, happly⟩ := exists_rounding (f := int) (by decide)
  refine ⟨?_, by decide, ?_⟩
  · rw [hrounds, hvalue, hpick.intCast]
  · rw [happly, hpick.mapRat_eq_self hvalue, toInteger_eq hwhole, if_pos (.inr rfl)]
    rfl

end Calls

end Builtin

end CrapsStrategy
