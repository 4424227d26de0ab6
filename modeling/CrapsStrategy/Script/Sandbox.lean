import CrapsStrategy.Script.Basic
import CrapsStrategy.Script.Builtin

/-!
# `CrapsStrategy.Script.Sandbox`: what scripts may do

A safe script assigns to plain names only, calls the built-in
functions by name only, subscripts by literal keys only, and has no
members and no statements behind reserved words. The check reports
the first construct that breaks a rule, in the order of the text.
-/

set_option autoImplicit false

namespace CrapsStrategy

namespace Expr

/-- A key that is written out: an integer, a negated one, or a text.
-/
def isLiteralKey : Expr → Bool
  | literal (.int _) => true
  | literal (.text _) => true
  | unary .neg (literal (.int _)) => true
  | _ => false

mutual

/-- Checks an expression. -/
def check : Expr → Except Fault Unit
  | literal _ => .ok ()
  | name _ => .ok ()
  | member _ field position => .error (.disallowedAt position (.member field))
  | subscript of index position => do
    if index.isLiteralKey then of.check else .error (.disallowedAt position .computedKey)
  | call (name function) arguments position => do
    if (Builtin.ofName? function).isSome then checkAll arguments
    else .error (.disallowedAt position (.call function))
  | call _ _ position => .error (.disallowedAt position .computedCall)
  | tuple items => checkAll items
  | list items => checkAll items
  | unary _ operand => operand.check
  | binary _ left right => do
    left.check
    right.check
  | logical _ operands => checkAll operands
  | compare first others => do
    first.check
    checkOthers others
  | ifElse test body otherwise => do
    test.check
    body.check
    otherwise.check

def checkAll : List Expr → Except Fault Unit
  | [] => .ok ()
  | e :: es => do
    e.check
    checkAll es

def checkOthers : List (Comparison × Expr) → Except Fault Unit
  | [] => .ok ()
  | (_, e) :: others => do
    e.check
    checkOthers others

end

end Expr

/-- Checks a statement. -/
def Statement.check : Statement → Except Fault Unit
  | expression e => e.check
  | assign (.name _) _ value _ => value.check
  | assign _ _ _ position => .error (.disallowedAt position .nonNameTarget)
  | forbidden word position => .error (.disallowedAt position (.statement word))

/-- Checks a script. -/
def Script.check (s : Script) : Except Fault Unit :=
  s.body.forM Statement.check

end CrapsStrategy
