import CrapsStrategy.Condition.Parser
import CrapsStrategy.Formula

/-!
# `CrapsStrategy.Guard`: when a rule may fire

A guard is a condition, or a single expression of the wide dialect
where the text is no condition. A text that is neither faults as a
condition. A guard holds when its value is true.
-/

set_option autoImplicit false

namespace CrapsStrategy

/-- A compiled guard in the dialect that accepted it. -/
inductive Guard where
  | narrow (condition : Condition)
  | wide (script : Script)

namespace Guard

/-- A script that is one expression, as a guard. -/
def ofScript? (s : Script) : Option Guard :=
  s.expression?.map fun _ => wide s

/-- Compiles a guard, as a condition first. -/
def compile (source : String) : Except Fault Guard :=
  match Condition.compile source with
  | .ok condition => .ok (narrow condition)
  | .error fault =>
    match (Script.compile source).toOption.bind ofScript? with
    | some guard => .ok guard
    | none => .error fault

/-- The value of a guard. -/
def value (g : Guard) (scope : Scope) : Except Fault Value :=
  match g with
  | narrow condition => condition.eval scope
  | wide script => script.value scope

/-- Whether a guard holds. -/
def test (g : Guard) (scope : Scope) : Except Fault Bool := do
  return (← g.value scope).truthy

end Guard

end CrapsStrategy
