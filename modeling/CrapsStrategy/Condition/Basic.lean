import CrapsStrategy.Scope

/-!
# `CrapsStrategy.Condition.Basic`: conditions and their truth

A condition is a guard in the narrow dialect: literals, paths, one
comparison at a time, and `not`, `and`, `or`. A path stands for the
truth of its value, except beside a comparison, which sees the value
itself. A comparison that the kinds do not support is false.
-/

set_option autoImplicit false

namespace CrapsStrategy

/-- A guard in the narrow dialect. -/
inductive Condition where
  | literal (v : Value)
  | path (text : String)
  | not (inner : Condition)
  | and (parts : List Condition)
  | or (parts : List Condition)
  | compare (op : Comparison) (left right : Condition)

namespace Condition

/-- An operand of a comparison: a path keeps its value, all else is
as evaluated. -/
def operand (scope : Scope) (c : Condition) (evaluated : Except Fault Value) :
    Except Fault Value :=
  match c with
  | path text => scope text
  | _ => evaluated

mutual

/-- The value of a condition. A fault in a part that is reached is the
fault of the whole. -/
def eval (scope : Scope) : Condition → Except Fault Value
  | literal v => .ok v
  | path text => do return .bool (← scope text).truthy
  | not inner => do return .bool !(← inner.eval scope).truthy
  | and parts => do return .bool (← evalAll scope parts)
  | or parts => do return .bool (← evalAny scope parts)
  | compare op left right => do
    let l ← operand scope left (left.eval scope)
    let r ← operand scope right (right.eval scope)
    return .bool ((op.test? l r).getD false)

/-- Whether all parts are true, up to the first that is not. -/
def evalAll (scope : Scope) : List Condition → Except Fault Bool
  | [] => .ok true
  | part :: parts => do
    if (← part.eval scope).truthy then evalAll scope parts else return false

/-- Whether a part is true, up to the first that is. -/
def evalAny (scope : Scope) : List Condition → Except Fault Bool
  | [] => .ok false
  | part :: parts => do
    if (← part.eval scope).truthy then return true else evalAny scope parts

end

end Condition

end CrapsStrategy
