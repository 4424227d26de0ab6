import CrapsStrategy.Scope

/-!
# `CrapsStrategy.Script.Basic`: scripts

A script is a list of statements in the wide dialect: expressions and
assignments. The tree also has room for what the sandbox refuses
(members, calls of anything, statements behind reserved words), so
that a refusal can say what it refused and where.
-/

set_option autoImplicit false

namespace CrapsStrategy

/-- An expression of the wide dialect. -/
inductive Expr where
  | literal (v : Value)
  | name (text : String)
  | member (of : Expr) (name : String) (position : Position)
  | tuple (items : List Expr)
  | list (items : List Expr)
  | subscript (of index : Expr) (position : Position)
  | call (function : Expr) (arguments : List Expr) (position : Position)
  | unary (op : UnaryOp) (operand : Expr)
  | binary (op : BinaryOp) (left right : Expr)
  | logical (op : LogicalOp) (operands : List Expr)
  | compare (first : Expr) (others : List (Comparison × Expr))
  | ifElse (test body otherwise : Expr)

/-- A statement. An assignment with an operator combines the target's
value with the new one. -/
inductive Statement where
  | expression (e : Expr)
  | assign (target : Expr) (op : Option BinaryOp) (value : Expr) (position : Position)
  | forbidden (word : String) (position : Position)

/-- Statements in order. -/
structure Script where
  body : List Statement

namespace Script

/-- The expression of a script that is nothing else. -/
def expression? (s : Script) : Option Expr :=
  match s.body with
  | [.expression e] => some e
  | _ => none

/-- Whether a statement assigns. -/
def isAssignment : Statement → Bool
  | .assign _ _ _ _ => true
  | _ => false

def hasAssignments (s : Script) : Bool :=
  s.body.any isAssignment

end Script

end CrapsStrategy
