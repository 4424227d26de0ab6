import CrapsStrategy.Decimal.Reader
import CrapsStrategy.Script.Arithmetic
import CrapsStrategy.Text.Blank

/-!
# `CrapsStrategy.Script.Builtin`: the functions of scripts

Scripts call eight pure functions. Truth values count as the integers
0 and 1. A double becomes an integer when its rounded value is within
the range of 64 bits, both ends as doubles included.
-/

set_option autoImplicit false

namespace CrapsStrategy

/-- The functions scripts may call. -/
inductive Builtin where
  | min | max | abs | round | int | float | floor | ceil
deriving DecidableEq, Repr

namespace Builtin

def all : List Builtin :=
  [min, max, abs, round, int, float, floor, ceil]

def name : Builtin → String
  | min => "min"
  | max => "max"
  | abs => "abs"
  | round => "round"
  | int => "int"
  | float => "float"
  | floor => "floor"
  | ceil => "ceil"

/-- The function of a name. -/
def ofName? (text : String) : Option Builtin :=
  all.find? fun f => f.name == text

/-- A number argument. -/
def numeric (f : Builtin) (v : Value) : Except EvalFault Number :=
  match v.numeric? with
  | some n => .ok n
  | none => .error (.notNumericArgument f.name v.kind)

/-- The integer of an integral double. -/
def toInteger (x : Binary64) : Except EvalFault Int64 :=
  -- The upper end is the double nearest to the greatest integer.
  if x.isFinite ∧ Binary64.minInt ≤ x.toRat ∧ x.toRat ≤ 9223372036854775808 then
    .ok (Int64.ofInt x.saturate)
  else .error (.notInteger x)

/-- The first item that no later one beats; `better` says which
comparison beats. -/
def best (better : Comparison) (first : Value) : List Value → Except EvalFault Value
  | [] => .ok first
  | item :: items => do
    if ← compareValues better item first then best better item items
    else best better first items

/-- The items of an extreme: the arguments, or the items of a single
one. -/
def extremeItems : List Value → Except EvalFault (List Value)
  | [.list items] => .ok items
  | [single] => .error (.notIterable single.kind)
  | items => .ok items

/-- The best item by a comparison. -/
def extreme (f : Builtin) (better : Comparison) (arguments : List Value) :
    Except EvalFault Value := do
  match ← extremeItems arguments with
  | [] => .error (.emptySequence f.name)
  | first :: items => best better first items

/-- The single argument of a function. -/
def single (f : Builtin) : List Value → Except EvalFault Value
  | [v] => .ok v
  | arguments => .error (.argumentCount f.name 1 1 arguments.length)

/-- The number of digits that a second argument asks for. -/
def digits : Option Value → Except EvalFault (Option Int64)
  | none => .ok none
  | some .null => .ok none
  | some (.int d) => .ok (some d)
  | some v => .error (.badDigits v.kind)

/-- A number rounded to some digits after its point, halves to even
after scaling. -/
def roundTo (n : Number) (d : Int64) : Except EvalFault Value :=
  match n with
  | .int i => if 0 ≤ d.toInt then .ok (.int i) else scaled n
  | _ => scaled n
where
  scaled (n : Number) : Except EvalFault Value :=
    if -2147483648 ≤ d.toInt ∧ d.toInt ≤ 2147483647 then
      let factor := Binary64.powInt 10 d.toInt
      .ok (.float ((n.toBinary64 * factor).roundEven / factor))
    else .error .overflow

/-- The result of rounding, to an integer when no digits are asked
for. -/
def rounded (v : Value) (asked : Option Value) : Except EvalFault Value := do
  let asked ← digits asked
  let n ← numeric round v
  match n, asked with
  | .int i, none => return .int i
  | .float x, none => return .int (← toInteger x.roundEven)
  | n, some d => roundTo n d

/-- The integer of a value: texts are read, doubles cut off. -/
def toInt (v : Value) : Except EvalFault Value :=
  match v with
  | .text s =>
    match Text.intWithin? Binary64.minInt Binary64.maxInt (Text.trim s) with
    | some i => .ok (.int (Int64.ofInt i))
    | none => .error (.badIntegerText s)
  | v => do
    match ← numeric int v with
    | .int i => return .int i
    | .float x => return .int (← toInteger x.truncate)

/-- The double of a value: texts are read. -/
def toFloat (v : Value) : Except EvalFault Value :=
  match v with
  | .text s =>
    match Binary64.read? (Text.trim s) with
    | some x => .ok (.float x)
    | none => .error (.badNumberText s)
  | v => do return .float (← numeric float v).toBinary64

/-- The magnitude of a number. -/
def magnitude (v : Value) : Except EvalFault Value := do
  match ← numeric abs v with
  | .int i => return .int (← checked i.toInt.natAbs)
  | .float x => return .float x.abs

/-- The integer beside a number that `f` picks for a double. -/
def integral (f : Builtin) (pick : Binary64 → Binary64) (v : Value) : Except EvalFault Value := do
  match ← numeric f v with
  | .int i => return .int i
  | .float x => return .int (← toInteger (pick x))

/-- The result of a call. -/
def apply (f : Builtin) (arguments : List Value) : Except EvalFault Value :=
  match f with
  | min => extreme min .lt arguments
  | max => extreme max .gt arguments
  | abs => do magnitude (← single abs arguments)
  | round =>
    match arguments with
    | [v] => rounded v none
    | [v, d] => rounded v (some d)
    | _ => .error (.argumentCount round.name 1 2 arguments.length)
  | int => do toInt (← single int arguments)
  | float => do toFloat (← single float arguments)
  | floor => do integral floor Binary64.floor (← single floor arguments)
  | ceil => do integral ceil Binary64.ceiling (← single ceil arguments)

end Builtin

end CrapsStrategy
