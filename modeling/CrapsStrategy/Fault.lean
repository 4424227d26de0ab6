import CrapsStrategy.Script.Operator
import CrapsStrategy.Value.Display
import CrapsStrategy.Value.Order

/-!
# `CrapsStrategy.Fault`: what can go wrong with an expression

A fault is a text that breaks the grammar, a name without a value, a
construct that scripts may not use, or a computation without a
result. `Fault.message` gives the wording of each.
-/

set_option autoImplicit false

namespace CrapsStrategy

/-- Why a text breaks the grammar. -/
inductive SyntaxFault where
  | unterminatedText
  | badNumber (digits : String)
  | hugeInteger (digits : String)
  | forbiddenSegment (segment : String)
  | unexpectedChar (c : Char)
  | unexpected (found : Token)
  | expected (wanted : Symbol) (found : Token)
  | expectedElse (found : Token)
  | emptyScript
  | statementsForExpression
deriving DecidableEq

def SyntaxFault.message : SyntaxFault → String
  | unterminatedText => "unterminated string literal"
  | badNumber digits => "invalid number literal '" ++ digits ++ "...'"
  | hugeInteger digits => "integer literal too large: " ++ digits
  | forbiddenSegment segment =>
    "identifier segment '" ++ segment ++ "' contains forbidden '__'"
  | unexpectedChar c => "unexpected character '" ++ String.singleton c ++ "'"
  | unexpected found => "unexpected " ++ found.display
  | expected wanted found => "expected '" ++ wanted.text ++ "' but found " ++ found.display
  | expectedElse found => "expected 'else' but found " ++ found.display
  | emptyScript => "empty expression"
  | statementsForExpression => "expected a single expression, found statements"

/-- What scripts may not contain. -/
inductive Construct where
  | nonNameTarget
  | statement (word : String)
  | wordInExpression (word : String)
  | member (name : String)
  | computedKey
  | call (function : String)
  | computedCall
deriving DecidableEq

def Construct.message : Construct → String
  | nonNameTarget => "assignment to a non-name target"
  | statement word => "'" ++ word ++ "' statement"
  | wordInExpression word => "'" ++ word ++ "' inside an expression"
  | member name => "attribute access '." ++ name ++ "'"
  | computedKey => "subscript with a non-literal key"
  | call function => "call to '" ++ function ++ "'"
  | computedCall => "call of a computed value"

/-- Why a computation has no result. -/
inductive EvalFault where
  | notNumber (kind : Value.Kind) (shown : String)
  | notTruth (s : String)
  | incomparable (op : Comparison) (left right : Value.Kind)
  | indexOutOfRange (index : Int64)
  | missingKey (key : String)
  | notSubscriptable (container index : Value.Kind)
  | overflow
  | divisionByZero
  | badUnaryOperand (kind : Value.Kind)
  | badOperands (op : BinaryOp) (left right : Value.Kind)
  | undefinedResult (op : BinaryOp)
  | notInteger (x : Binary64)
  | argumentCount (function : String) (least most given : Nat)
  | notNumericArgument (function : String) (kind : Value.Kind)
  | notIterable (kind : Value.Kind)
  | emptySequence (function : String)
  | badDigits (kind : Value.Kind)
  | badIntegerText (s : String)
  | badNumberText (s : String)
  | notCallable (function : String)
deriving DecidableEq

def EvalFault.message : EvalFault → String
  | notNumber kind shown => "expected a number, got '" ++ kind.name ++ "' (" ++ shown ++ ")"
  | notTruth s => "cannot interpret '" ++ s ++ "' as a boolean"
  | incomparable op left right =>
    "'" ++ op.symbol ++ "' not supported between '" ++ left.name ++ "' and '" ++ right.name ++ "'"
  | indexOutOfRange index => "index " ++ toString index.toInt ++ " out of range"
  | missingKey key => "key '" ++ key ++ "' not found"
  | notSubscriptable container index =>
    "'" ++ container.name ++ "' is not subscriptable by '" ++ index.name ++ "'"
  | overflow => "integer overflow"
  | divisionByZero => "division by zero"
  | badUnaryOperand kind => "bad operand type for unary operator: '" ++ kind.name ++ "'"
  | badOperands op left right =>
    "unsupported operand types for " ++ op.symbol ++ ": '" ++ left.name ++ "' and '" ++
      right.name ++ "'"
  | undefinedResult op => op.symbol ++ " produced an undefined result"
  | notInteger x => "cannot convert " ++ x.text ++ " to int"
  | argumentCount function least most given =>
    let allowed := if least = most then toString least else toString least ++ " to " ++ toString most
    function ++ "() takes " ++ allowed ++ " argument(s), got " ++ toString given
  | notNumericArgument function kind =>
    function ++ "() expects a number, got '" ++ kind.name ++ "'"
  | notIterable kind => "'" ++ kind.name ++ "' object is not iterable"
  | emptySequence function => function ++ "() arg is an empty sequence"
  | badDigits kind => "round() digits must be an int, got '" ++ kind.name ++ "'"
  | badIntegerText s => "invalid literal for int(): '" ++ s ++ "'"
  | badNumberText s => "could not convert string to float: '" ++ s ++ "'"
  | notCallable function => "'" ++ function ++ "' is not callable"

/-- What can go wrong with an expression. -/
inductive Fault where
  | syntaxAt (position : Position) (fault : SyntaxFault)
  | unknownVariable (name : String)
  | unknownPath (path : String)
  | disallowedAt (position : Position) (construct : Construct)
  | evaluation (fault : EvalFault)
deriving DecidableEq

namespace Fault

/-- A position as messages name it. -/
def placeText (p : Position) : String :=
  "line " ++ toString p.line ++ ", column " ++ toString p.column

/-- The wording of a fault. -/
def message : Fault → String
  | syntaxAt position fault =>
    "Syntax error at " ++ placeText position ++ ": " ++ fault.message
  | unknownVariable name => "unknown variable '" ++ name ++ "'"
  | unknownPath path => "unknown path '" ++ path ++ "'"
  | disallowedAt position construct =>
    "Disallowed construct at " ++ placeText position ++ ": " ++ construct.message
  | evaluation fault => "Evaluation error: " ++ fault.message

end Fault

end CrapsStrategy
