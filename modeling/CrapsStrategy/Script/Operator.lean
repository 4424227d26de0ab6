import CrapsStrategy.Token.Basic

/-!
# `CrapsStrategy.Script.Operator`: operators of the wide dialect

The arithmetic, unary and logical operators of scripts, and the
symbols that write them.
-/

set_option autoImplicit false

namespace CrapsStrategy

/-- The arithmetic operators. -/
inductive BinaryOp where
  | add | sub | mul | div | floorDiv | mod | pow
deriving DecidableEq, Repr

namespace BinaryOp

/-- The written form. -/
def symbol : BinaryOp → String
  | add => "+"
  | sub => "-"
  | mul => "*"
  | div => "/"
  | floorDiv => "//"
  | mod => "%"
  | pow => "**"

/-- The operators of sums. -/
def additive? : Token → Option BinaryOp
  | .symbol .plus => some add
  | .symbol .minus => some sub
  | _ => none

/-- The operators of products. -/
def multiplicative? : Token → Option BinaryOp
  | .symbol .times => some mul
  | .symbol .divide => some div
  | .symbol .floorDivide => some floorDiv
  | .symbol .remainder => some mod
  | _ => none

/-- The operator that an assignment combines with, if it does; none
for what is no assignment. -/
def assignment? : Token → Option (Option BinaryOp)
  | .symbol .assign => some none
  | .symbol .plusAssign => some (some add)
  | .symbol .minusAssign => some (some sub)
  | .symbol .timesAssign => some (some mul)
  | .symbol .divideAssign => some (some div)
  | .symbol .floorDivideAssign => some (some floorDiv)
  | .symbol .remainderAssign => some (some mod)
  | _ => none

end BinaryOp

/-- The unary operators. -/
inductive UnaryOp where
  | plus | neg | not
deriving DecidableEq, Repr

/-- The operators of a signed factor. -/
def UnaryOp.sign? : Token → Option UnaryOp
  | .symbol .plus => some plus
  | .symbol .minus => some neg
  | _ => none

/-- The logical operators of several operands. -/
inductive LogicalOp where
  | and | or
deriving DecidableEq, Repr

end CrapsStrategy
