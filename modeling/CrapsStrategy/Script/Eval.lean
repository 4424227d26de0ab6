import CrapsStrategy.Script.Basic
import CrapsStrategy.Script.Builtin

/-!
# `CrapsStrategy.Script.Eval`: the meaning of scripts

Expressions compute values in a scope, from left to right, and stop
at the first fault. Statements run over live variables laid on top of
a base scope: an assignment is visible to the statements after it. A
script that faults keeps the assignments made before (`Run`).
-/

set_option autoImplicit false

namespace CrapsStrategy

/-- A computation as a step of an evaluation. -/
def evaluated {α : Type} : Except EvalFault α → Except Fault α
  | .ok a => .ok a
  | .error fault => .error (.evaluation fault)

/-- The value of a name. Whatever keeps a scope from answering, the
name is unknown. -/
def Scope.named (scope : Scope) (name : String) : Except Fault Value :=
  match scope name with
  | .ok v => .ok v
  | .error _ => .error (.unknownVariable name)

/-- Whether an operand decides its operator on its own. -/
def LogicalOp.stopsAt (op : LogicalOp) (v : Value) : Bool :=
  match op with
  | and => !v.truthy
  | or => v.truthy

namespace Expr

mutual

/-- The value of an expression. -/
def eval (scope : Scope) : Expr → Except Fault Value
  | literal v => .ok v
  | name text => scope.named text
  | member _ field position => .error (.disallowedAt position (.member field))
  | tuple items => do return .list (← evalItems scope items)
  | list items => do return .list (← evalItems scope items)
  | subscript of index _ => do
    let container ← of.eval scope
    let key ← index.eval scope
    evaluated (subscriptOperation container key)
  | call (name function) arguments _ => do
    let values ← evalItems scope arguments
    match Builtin.ofName? function with
    | some f => evaluated (f.apply values)
    | none => .error (.evaluation (.notCallable function))
  | call _ _ position => .error (.disallowedAt position .computedCall)
  | unary op operand => do
    let v ← operand.eval scope
    evaluated (unaryOperation op v)
  | binary op left right => do
    let l ← left.eval scope
    let r ← right.eval scope
    evaluated (binaryOperation op l r)
  | logical op operands => evalLogical scope op .null operands
  | compare first others => do
    let left ← first.eval scope
    return .bool (← evalChain scope left others)
  | ifElse test body otherwise => do
    if (← test.eval scope).truthy then body.eval scope else otherwise.eval scope

def evalItems (scope : Scope) : List Expr → Except Fault (List Value)
  | [] => .ok []
  | e :: es => do
    let v ← e.eval scope
    let vs ← evalItems scope es
    return v :: vs

/-- The first operand that decides, or else the last one. -/
def evalLogical (scope : Scope) (op : LogicalOp) (last : Value) : List Expr → Except Fault Value
  | [] => .ok last
  | e :: es => do
    let v ← e.eval scope
    if op.stopsAt v then return v else evalLogical scope op v es

/-- Whether each link of a chain holds, up to the first that does
not. -/
def evalChain (scope : Scope) (left : Value) : List (Comparison × Expr) → Except Fault Bool
  | [] => .ok true
  | (op, e) :: others => do
    let right ← e.eval scope
    if ← evaluated (compareValues op left right) then evalChain scope right others
    else return false

end

end Expr

/-! ## Statements -/

/-- The live variables of a run, the value of its last expression
statement, and its assignments in order. -/
structure Run where
  vars : Variables
  value : Option Value
  assigned : List (String × Value)

/-- A run before its first statement. -/
def Run.start (vars : Variables) : Run :=
  { vars, value := none, assigned := [] }

/-- A run after an assignment. -/
def Run.assign (run : Run) (name : String) (v : Value) : Run :=
  { run with vars := run.vars.insert name v, assigned := run.assigned ++ [(name, v)] }

/-- The value that an assignment stores. -/
def assignedValue (scope : Scope) (name : String) (op : Option BinaryOp) (value : Expr) :
    Except Fault Value := do
  let right ← value.eval scope
  match op with
  | none => return right
  | some op => evaluated (binaryOperation op (← scope.named name) right)

/-- Runs a statement. -/
def Statement.run (base : Scope) (run : Run) : Statement → Except Fault Run
  | expression e => do
    let v ← e.eval (.overlay run.vars base)
    return { run with value := some v }
  | assign (.name name) op value _ => do
    return run.assign name (← assignedValue (.overlay run.vars base) name op value)
  | assign _ _ _ position => .error (.disallowedAt position .nonNameTarget)
  | forbidden word position => .error (.disallowedAt position (.statement word))

/-- Runs statements up to the first fault, if there is one. -/
def runStatements (base : Scope) (run : Run) : List Statement → Run × Option Fault
  | [] => (run, none)
  | s :: rest =>
    match s.run base run with
    | .ok run => runStatements base run rest
    | .error fault => (run, some fault)

/-- Runs a script over live variables. -/
def Script.run (s : Script) (base : Scope) (vars : Variables) : Run × Option Fault :=
  runStatements base (.start vars) s.body

end CrapsStrategy
