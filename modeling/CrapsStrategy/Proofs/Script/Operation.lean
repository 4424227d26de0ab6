import CrapsStrategy.Proofs.Except
import CrapsStrategy.Script.Builtin

/-!
# `CrapsStrategy.Proofs.Script.Operation`: how operations fail

Operators, subscripts and the functions of scripts fail on kinds that
they do not support, on results that do not fit and on divisors of
zero. None of them ever complains about a function that is not there:
`Uncallable` is left to the call itself, which looks the function up.
There is one lemma for each operation, from integers up to
`Builtin.apply`. Operators on doubles have few outcomes at all
(`DoubleOutcome`).
-/

set_option autoImplicit false

namespace CrapsStrategy

namespace EvalFault

/-- The fault of calling what is no function. -/
def Uncallable : EvalFault → Prop
  | notCallable _ => True
  | _ => False

end EvalFault

/-- A computation that never complains about what it calls. -/
abbrev Computes {α : Type} (x : Except EvalFault α) : Prop :=
  FaultsIn (fun fault => ¬ fault.Uncallable) x

/-! ### Numbers -/

/-- The check of a range reports an overflow or nothing. -/
theorem computes_checked (i : Int) : Computes (checked i) := by
  unfold checked
  split <;> simp [EvalFault.Uncallable]

/-- Powers are checked in the same way, or overflow without being
computed. -/
theorem computes_checkedPower (a : Int64) (n : Nat) : Computes (checkedPower a n) := by
  unfold checkedPower
  refine .ite (computes_checked _) (.ite (computes_checked _) (.ite (computes_checked _) ?_))
  exact .ite (computes_checked _) (by simp [EvalFault.Uncallable])

/-- The outcomes of an operator on doubles: a double, or the faults of a
divisor of zero and of a result that is no number. -/
def DoubleOutcome (op : BinaryOp) : Except EvalFault Value → Prop
  | .ok v => v.kind = .float
  | .error fault => fault = .divisionByZero ∨ fault = .undefinedResult op

/-- Operators on doubles have no other outcomes. Division, `//` and `%`
look at their divisor first. -/
theorem doubleOutcome_floatOperation (op : BinaryOp) (a b : Binary64) :
    DoubleOutcome op (floatOperation op a b) := by
  -- All branches end in the same look at their result.
  have hresult : ∀ result : Binary64, DoubleOutcome op
      (if result.isNaN then .error (.undefinedResult op) else pure (.float result)) := by
    intro result
    split
    · exact .inr rfl
    · exact rfl
  have hdivide : ∀ result : Binary64, DoubleOutcome op
      (if b.equal 0 then .error .divisionByZero
        else if result.isNaN then .error (.undefinedResult op) else pure (.float result)) := by
    intro result
    split
    · exact .inl rfl
    · exact hresult result
  unfold floatOperation
  cases op with
  | add => exact hresult _
  | sub => exact hresult _
  | mul => exact hresult _
  | div => exact hdivide _
  | floorDiv => exact hdivide _
  | mod => exact hdivide _
  | pow => exact hresult _

/-- Neither of the two faults is about a call. -/
theorem computes_floatOperation (op : BinaryOp) (a b : Binary64) :
    Computes (floatOperation op a b) := by
  intro fault h
  have houtcome := doubleOutcome_floatOperation op a b
  rw [h] at houtcome
  rcases houtcome with rfl | rfl
  · exact id
  · exact id

/-- The quotient that is corrected fails where the quotient does. -/
theorem computes_floorQuotient (a b : Int64) : Computes (floorQuotient a b) :=
  (computes_checked _).bind fun _ _ => .pure _

/-- The rest that is corrected is only taken where there is a quotient. -/
theorem computes_floorRemainder (a b : Int64) : Computes (floorRemainder a b) :=
  ((computes_checked _).bind fun _ _ => .pure _).bind fun _ _ => .pure _

/-- Operators on integers complain about divisors and ranges. `/` and
powers below zero are left to the doubles. -/
theorem computes_intOperation (op : BinaryOp) (a b : Int64) : Computes (intOperation op a b) := by
  have hzero : Computes (.error .divisionByZero : Except EvalFault Value) := by
    simp [EvalFault.Uncallable]
  have hresult : ∀ x : Except EvalFault Int64, Computes x →
      Computes (x >>= fun n => pure (Value.int n)) :=
    fun _ hx => hx.bind fun _ _ => .pure _
  unfold intOperation
  cases op with
  | add => exact hresult _ (computes_checked _)
  | sub => exact hresult _ (computes_checked _)
  | mul => exact hresult _ (computes_checked _)
  | div => exact computes_floatOperation _ _ _
  | floorDiv => exact .ite hzero (hresult _ (computes_floorQuotient _ _))
  | mod => exact .ite hzero (hresult _ (computes_floorRemainder _ _))
  | pow =>
    refine .ite (computes_floatOperation _ _ _) (.ite ?_ (by simp [EvalFault.Uncallable]))
    exact hresult _ (computes_checkedPower _ _)

/-! ### Operators -/

/-- Texts and lists are joined by `+`, numbers are computed, and all
other pairs are unsupported. -/
theorem computes_binaryOperation (op : BinaryOp) (l r : Value) :
    Computes (binaryOperation op l r) := by
  unfold binaryOperation
  split
  · exact .ok _
  · exact .ok _
  · split
    · exact computes_intOperation _ _ _
    · exact computes_floatOperation _ _ _
    · simp [EvalFault.Uncallable]

/-- Signs are for numbers, `not` for everything. -/
theorem computes_unaryOperation (op : UnaryOp) (v : Value) : Computes (unaryOperation op v) := by
  unfold unaryOperation
  split
  · exact .ok _
  · exact .ok _
  · exact (computes_checked _).bind fun _ _ => .pure _
  · exact .ok _
  · simp [EvalFault.Uncallable]

/-- Values that do not compare are unsupported. -/
theorem computes_compareValues (op : Comparison) (left right : Value) :
    Computes (compareValues op left right) := by
  unfold compareValues
  split <;> simp [EvalFault.Uncallable]

/-- Keys that are missing or of the wrong kind are no calls. -/
theorem computes_subscriptOperation (container index : Value) :
    Computes (subscriptOperation container index) := by
  unfold subscriptOperation
  split
  · split <;> simp [EvalFault.Uncallable]
  · split <;> simp [EvalFault.Uncallable]
  · split <;> simp [EvalFault.Uncallable]
  · simp [EvalFault.Uncallable]

/-! ### Functions -/

namespace Builtin

/-- A function asked for a number complains about its argument. -/
theorem computes_numeric (f : Builtin) (v : Value) : Computes (numeric f v) := by
  unfold numeric
  split <;> simp [EvalFault.Uncallable]

/-- A double that has no integer is out of range or no number. -/
theorem computes_toInteger (x : Binary64) : Computes (toInteger x) := by
  unfold toInteger
  split <;> simp [EvalFault.Uncallable]

/-- The search for an extreme fails where a comparison does. -/
theorem computes_best (better : Comparison) (first : Value) (items : List Value) :
    Computes (best better first items) := by
  induction items generalizing first with
  | nil => exact .ok first
  | cons item items ih =>
    refine (computes_compareValues _ _ _).bind fun beats _ => ?_
    split
    · exact ih item
    · exact ih first

/-- An extreme of nothing is a fault of its own. -/
theorem computes_extreme (f : Builtin) (better : Comparison) (arguments : List Value) :
    Computes (extreme f better arguments) := by
  unfold extreme
  refine FaultsIn.bind ?_ fun items _ => ?_
  · unfold extremeItems
    split <;> simp [EvalFault.Uncallable]
  · split
    · simp [EvalFault.Uncallable]
    · exact computes_best _ _ _

/-- A function of one argument refuses any other number of them. -/
theorem computes_single (f : Builtin) (arguments : List Value) : Computes (single f arguments) := by
  unfold single
  split <;> simp [EvalFault.Uncallable]

/-- Digits have to be an integer. -/
theorem computes_digits (asked : Option Value) : Computes (digits asked) := by
  unfold digits
  split <;> simp [EvalFault.Uncallable]

/-- Rounding to digits may leave the range of the doubles. -/
theorem computes_scaled (d : Int64) (n : Number) : Computes (roundTo.scaled d n) := by
  unfold roundTo.scaled
  split <;> simp [EvalFault.Uncallable]

/-- An integer has no digits to round to the right of the point. -/
theorem computes_roundTo (n : Number) (d : Int64) : Computes (roundTo n d) := by
  unfold roundTo
  split
  · split
    · exact .ok _
    · exact computes_scaled _ _
  · exact computes_scaled _ _

/-- `round` looks at its digits first, then at its number. -/
theorem computes_rounded (v : Value) (asked : Option Value) : Computes (rounded v asked) := by
  refine (computes_digits _).bind fun _ _ => (computes_numeric _ _).bind fun _ _ => ?_
  split
  · exact .pure _
  · exact (computes_toInteger _).bind fun _ _ => .pure _
  · exact computes_roundTo _ _

/-- `int` reads texts and truncates numbers. -/
theorem computes_toInt (v : Value) : Computes (toInt v) := by
  unfold toInt
  split
  · split <;> simp [EvalFault.Uncallable]
  · refine (computes_numeric _ _).bind fun _ _ => ?_
    split
    · exact .pure _
    · exact (computes_toInteger _).bind fun _ _ => .pure _

/-- `float` reads texts and widens numbers. -/
theorem computes_toFloat (v : Value) : Computes (toFloat v) := by
  unfold toFloat
  split
  · split <;> simp [EvalFault.Uncallable]
  · exact (computes_numeric _ _).bind fun _ _ => .pure _

/-- `abs` of the least integer does not fit. -/
theorem computes_magnitude (v : Value) : Computes (magnitude v) := by
  refine (computes_numeric _ _).bind fun _ _ => ?_
  split
  · exact (computes_checked _).bind fun _ _ => .pure _
  · exact .pure _

/-- `floor` and `ceil` share one body, with their own rounding. -/
theorem computes_integral (f : Builtin) (pick : Binary64 → Binary64) (v : Value) :
    Computes (integral f pick v) := by
  refine (computes_numeric _ _).bind fun _ _ => ?_
  split
  · exact .pure _
  · exact (computes_toInteger _).bind fun _ _ => .pure _

/-- No function complains about a call, whatever its arguments. -/
theorem computes_apply (f : Builtin) (arguments : List Value) : Computes (f.apply arguments) := by
  unfold apply
  split
  · exact computes_extreme _ _ _
  · exact computes_extreme _ _ _
  · exact (computes_single _ _).bind fun _ _ => computes_magnitude _
  · split
    · exact computes_rounded _ _
    · exact computes_rounded _ _
    · simp [EvalFault.Uncallable]
  · exact (computes_single _ _).bind fun _ _ => computes_toInt _
  · exact (computes_single _ _).bind fun _ _ => computes_toFloat _
  · exact (computes_single _ _).bind fun _ _ => computes_integral _ _ _
  · exact (computes_single _ _).bind fun _ _ => computes_integral _ _ _

end Builtin

end CrapsStrategy
