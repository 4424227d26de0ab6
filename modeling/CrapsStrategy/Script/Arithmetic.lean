import CrapsStrategy.Binary64.Arithmetic
import CrapsStrategy.Fault

/-!
# `CrapsStrategy.Script.Arithmetic`: operators on values

Two integers compute exactly and fail when the result does not fit 64
bits; `/` and negative powers leave the integers. Any other pair of
numbers computes on doubles, where a result that is no number is a
fault. `//` and `%` go with the floor of the quotient, so a remainder
has the sign of its divisor.
-/

set_option autoImplicit false

namespace CrapsStrategy

/-- A number, as operators see it. -/
inductive Number where
  | int (i : Int64)
  | float (x : Binary64)
deriving DecidableEq

namespace Number

def toBinary64 : Number → Binary64
  | int i => .ofInt i.toInt
  | float x => x

def toValue : Number → Value
  | int i => .int i
  | float x => .float x

end Number

/-- A value as a number; truth values are 0 and 1. -/
def Value.numeric? : Value → Option Number
  | bool b => some (.int (if b then 1 else 0))
  | int i => some (.int i)
  | float x => some (.float x)
  | _ => none

/-- The result of an exact computation, when it fits 64 bits. -/
def checked (i : Int) : Except EvalFault Int64 :=
  if Binary64.minInt ≤ i ∧ i ≤ Binary64.maxInt then .ok (Int64.ofInt i) else .error .overflow

/-- Whether two values compare as asked; a fault when their kinds do
not. -/
def compareValues (op : Comparison) (left right : Value) : Except EvalFault Bool :=
  match op.test? left right with
  | some b => .ok b
  | none => .error (.incomparable op left.kind right.kind)

/-- An operator on doubles. -/
def floatOperation (op : BinaryOp) (a b : Binary64) : Except EvalFault Value := do
  let result ← match op with
    | .add => .ok (a + b)
    | .sub => .ok (a - b)
    | .mul => .ok (a * b)
    | .div => if b.equal 0 then .error .divisionByZero else .ok (a / b)
    | .floorDiv => if b.equal 0 then .error .divisionByZero else .ok (a / b).floor
    | .mod => if b.equal 0 then .error .divisionByZero else .ok (a - b * (a / b).floor)
    | .pow => .ok (a.pow b)
  if result.isNaN then .error (.undefinedResult op) else return .float result

/-- The power of an integer when it fits 64 bits. Beyond 63 factors
only -1, 0 and 1 do. -/
def checkedPower (a : Int64) (n : Nat) : Except EvalFault Int64 :=
  let base := a.toInt
  if base = 0 then checked (if n = 0 then 1 else 0)
  else if base = 1 then checked 1
  else if base = -1 then checked (if n % 2 = 0 then 1 else -1)
  else if n < 64 then checked (Int.pow base n)
  else .error .overflow

/-- A quotient cut off toward zero, when it fits 64 bits. -/
def checkedQuotient (a b : Int64) : Except EvalFault Int64 :=
  checked (a.toInt.tdiv b.toInt)

/-- The remainder of a quotient cut off toward zero, with the sign of
the dividend. It fails where the quotient does. -/
def checkedRemainder (a b : Int64) : Except EvalFault Int64 := do
  let _ ← checkedQuotient a b
  return a % b

/-- Whether just one of two integers is negative. -/
def signsDiffer (a b : Int64) : Bool :=
  decide (a < 0) != decide (b < 0)

/-- The floor of a quotient. Cutting off goes up where the signs differ,
so with a rest the floor is one less. -/
def floorQuotient (a b : Int64) : Except EvalFault Int64 := do
  let quotient ← checkedQuotient a b
  return if a % b ≠ 0 ∧ signsDiffer a b then quotient - 1 else quotient

/-- The remainder of a floored quotient, with the sign of the divisor. -/
def floorRemainder (a b : Int64) : Except EvalFault Int64 := do
  let rest ← checkedRemainder a b
  return if rest ≠ 0 ∧ signsDiffer rest b then rest + b else rest

/-- An operator on integers. A remainder fails where its quotient
overflows; an exponent has at most 32 bits. -/
def intOperation (op : BinaryOp) (a b : Int64) : Except EvalFault Value :=
  match op with
  | .add => do return .int (← checked (a.toInt + b.toInt))
  | .sub => do return .int (← checked (a.toInt - b.toInt))
  | .mul => do return .int (← checked (a.toInt * b.toInt))
  | .div => floatOperation .div (.ofInt a.toInt) (.ofInt b.toInt)
  | .floorDiv =>
    if b = 0 then .error .divisionByZero else do return .int (← floorQuotient a b)
  | .mod =>
    if b = 0 then .error .divisionByZero else do return .int (← floorRemainder a b)
  | .pow =>
    if b.toInt < 0 then floatOperation .pow (.ofInt a.toInt) (.ofInt b.toInt)
    else if b.toInt ≤ 4294967295 then do return .int (← checkedPower a b.toInt.toNat)
    else .error .overflow

/-- An arithmetic operator on values. `+` also joins texts and
lists. -/
def binaryOperation (op : BinaryOp) (l r : Value) : Except EvalFault Value :=
  match op, l, r with
  | .add, .text a, .text b => .ok (.text (a ++ b))
  | .add, .list a, .list b => .ok (.list (a ++ b))
  | op, l, r =>
    match l.numeric?, r.numeric? with
    | some (.int a), some (.int b) => intOperation op a b
    | some a, some b => floatOperation op a.toBinary64 b.toBinary64
    | _, _ => .error (.badOperands op l.kind r.kind)

/-- A unary operator on a value. -/
def unaryOperation (op : UnaryOp) (v : Value) : Except EvalFault Value :=
  match op, v.numeric? with
  | .not, _ => .ok (.bool !v.truthy)
  | .plus, some n => .ok n.toValue
  | .neg, some (.int i) => do return .int (← checked (-i.toInt))
  | .neg, some (.float x) => .ok (.float (-x))
  | _, none => .error (.badUnaryOperand v.kind)

/-- The place of an index in a sequence, counted from the end when it
is negative. -/
def place? (index : Int64) (length : Nat) : Option Nat :=
  let i := if index.toInt < 0 then index.toInt + length else index.toInt
  if 0 ≤ i ∧ i < length then some i.toNat else none

/-- The item of a container at an index or a key. -/
def subscriptOperation (container index : Value) : Except EvalFault Value :=
  match container, index with
  | .list items, .int i =>
    match (place? i items.length).bind (items[·]?) with
    | some item => .ok item
    | none => .error (.indexOutOfRange i)
  | .text s, .int i =>
    match (place? i s.toList.length).bind (s.toList[·]?) with
    | some c => .ok (.text (String.singleton c))
    | none => .error (.indexOutOfRange i)
  | .map entries, .text key =>
    match entries.lookup key with
    | some v => .ok v
    | none => .error (.missingKey key)
  | container, index => .error (.notSubscriptable container.kind index.kind)

end CrapsStrategy
