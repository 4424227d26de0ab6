import CrapsStrategy.Fault

/-!
# `CrapsStrategy.Scope`: what names stand for

A scope gives every name a value or a fault. Variables make a scope
that knows whole names only; live variables are laid over another
scope and win.
-/

set_option autoImplicit false

namespace CrapsStrategy

/-- The value of each name. -/
abbrev Scope := String → Except Fault Value

namespace Scope

/-- The scope of a variable map. A dotted path is a name like any
other. -/
def ofVariables (vars : Variables) : Scope := fun name =>
  match vars.get? name with
  | some v => .ok v
  | none => .error (.unknownVariable name)

/-- Variables laid over a scope. -/
def overlay (vars : Variables) (base : Scope) : Scope := fun name =>
  match vars.get? name with
  | some v => .ok v
  | none => base name

end Scope

end CrapsStrategy
