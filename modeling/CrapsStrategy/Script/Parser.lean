import CrapsStrategy.Script.Basic
import CrapsStrategy.Token.Lexer
import CrapsStrategy.Token.Stream

/-!
# `CrapsStrategy.Script.Parser`: scripts from text

The grammar, loosest binding first:

* script: statements divided by line ends or `;`, at least one;
* statement: an expression, or two around an assignment symbol;
* expression: a disjunction, or `a if test else b`;
* disjunction, conjunction, negation: `or`, `and`, `not`;
* comparison: sums in a chain of comparisons;
* sum, product: factors, from the left;
* factor: a power behind any number of signs;
* power: a postfix form, to the power of a factor;
* postfix: an atom with calls and subscripts after it;
* atom: a literal, a dotted name, a list, a tuple or a group.

A statement that starts with a reserved word is kept as forbidden and
its text skipped; a reserved word anywhere else is refused on the
spot.
-/

set_option autoImplicit false

namespace CrapsStrategy.Script

open TokenStream

/-- The expression of a dotted path: members of its first segment,
of one another. -/
def dotted (path : String) (position : Position) : Expr :=
  match (Lexer.segments path.toList).map String.ofList with
  | [] => .name path
  | first :: members =>
    members.foldl (fun e member => .member e member position) (.name first)

/-- Operands under a logical operator; a single one stands for
itself. -/
def joined (op : LogicalOp) : List Expr → Expr
  | [operand] => operand
  | operands => .logical op operands

/-- A chain of comparisons; none after the first sum is that sum. -/
def chained (first : Expr) : List (Comparison × Expr) → Expr
  | [] => first
  | others => .compare first others

/-- Operands and operators from the left. -/
def fromLeft (first : Expr) (others : List (BinaryOp × Expr)) : Expr :=
  others.foldl (fun left other => .binary other.1 left other.2) first

/-- The comparison that is next; `not in` takes two tokens. -/
def comparison? : (ts : List Located) → Option (Comparison × Rest ts)
  | [] => none
  | t :: rest =>
    match t.token, after? (.keyword .isIn) rest with
    | .keyword .isIn, _ => some (.isIn, .tail t rest)
    | .keyword .not, some rest' => some (.notIn, .cons t rest')
    | token, _ => (Comparison.ofToken? token).map fun op => (op, .tail t rest)

/-- The word of a reserved token. -/
def reserved? : Token → Option String
  | .reserved word => some word
  | _ => none

/-- The path of a name token. -/
def name? : Token → Option String
  | .name path => some path
  | _ => none

/-- Refuses a reserved word that is next. -/
def refuseReserved (ts : List Located) : Except Fault Unit :=
  match reserved? (next ts).token with
  | some word => .error (.disallowedAt (next ts).position (.wordInExpression word))
  | none => .ok ()

/-- A literal or a name. -/
def leaf (ts : List Located) : Except Fault (Parsed Expr ts.length) :=
  match accept? Token.literal? ts, accept? name? ts with
  | some (v, ⟨rest, h⟩), _ => .ok ⟨.literal v, rest, h⟩
  | none, some (path, ⟨rest, h⟩) => .ok ⟨dotted path (next ts).position, rest, h⟩
  | none, none => do
    refuseReserved ts
    unexpected ts

-- A call has fewer tokens, or as many and a rule that binds tighter. The
-- summand behind the length is the rank of the rule.
mutual

def expression (ts : List Located) : Except Fault (Parsed Expr ts.length) := do
  let body ← disjunction ts
  match after? (.keyword .ifThen) body.rest with
  | some ⟨rest, h⟩ =>
    have fewer := Nat.lt_trans h body.fewer
    let test ← disjunction rest
    have fewer' := Nat.lt_trans test.fewer fewer
    match after? (.keyword .otherwise) test.rest with
    | some ⟨rest', h'⟩ =>
      have fewer'' := Nat.lt_trans h' fewer'
      let otherwise ← expression rest'
      return (otherwise.map (.ifElse test.node body.node)).inside fewer''
    | none =>
      .error (.syntaxAt (next test.rest).position (.expectedElse (next test.rest).token))
  | none => return body
termination_by 11 * ts.length + 9

def disjunction (ts : List Located) : Except Fault (Parsed Expr ts.length) := do
  let first ← conjunction ts
  let others ← orTail first.rest
  return (others.map fun operands => joined .or (first.node :: operands)).weaken first.fewer
termination_by 11 * ts.length + 8
decreasing_by
  · omega
  · have := first.fewer
    omega

/-- The further operands of a disjunction. -/
def orTail (ts : List Located) : Except Fault (Parsed (List Expr) (ts.length + 1)) :=
  match after? (.keyword .or) ts with
  | some ⟨rest, h⟩ => do
    let operand ← conjunction rest
    have fewer := Nat.lt_trans operand.fewer h
    let others ← orTail operand.rest
    return (others.map (operand.node :: ·)).insideTail fewer
  | none => .ok (.stop [] ts)
termination_by 11 * ts.length

def conjunction (ts : List Located) : Except Fault (Parsed Expr ts.length) := do
  let first ← negation ts
  let others ← andTail first.rest
  return (others.map fun operands => joined .and (first.node :: operands)).weaken first.fewer
termination_by 11 * ts.length + 7
decreasing_by
  · omega
  · have := first.fewer
    omega

/-- The further operands of a conjunction. -/
def andTail (ts : List Located) : Except Fault (Parsed (List Expr) (ts.length + 1)) :=
  match after? (.keyword .and) ts with
  | some ⟨rest, h⟩ => do
    let operand ← negation rest
    have fewer := Nat.lt_trans operand.fewer h
    let others ← andTail operand.rest
    return (others.map (operand.node :: ·)).insideTail fewer
  | none => .ok (.stop [] ts)
termination_by 11 * ts.length

def negation (ts : List Located) : Except Fault (Parsed Expr ts.length) :=
  match after? (.keyword .not) ts with
  | some ⟨rest, h⟩ => do
    let operand ← negation rest
    return (operand.map (.unary .not)).inside h
  | none => comparison ts
termination_by 11 * ts.length + 6

def comparison (ts : List Located) : Except Fault (Parsed Expr ts.length) := do
  let first ← sum ts
  let others ← comparisonTail first.rest
  return (others.map (chained first.node)).weaken first.fewer
termination_by 11 * ts.length + 5
decreasing_by
  · omega
  · have := first.fewer
    omega

/-- The further links of a chain of comparisons. -/
def comparisonTail (ts : List Located) :
    Except Fault (Parsed (List (Comparison × Expr)) (ts.length + 1)) :=
  match comparison? ts with
  | some (op, ⟨rest, h⟩) => do
    let operand ← sum rest
    have fewer := Nat.lt_trans operand.fewer h
    let others ← comparisonTail operand.rest
    return (others.map ((op, operand.node) :: ·)).insideTail fewer
  | none => .ok (.stop [] ts)
termination_by 11 * ts.length

def sum (ts : List Located) : Except Fault (Parsed Expr ts.length) := do
  let first ← product ts
  let others ← sumTail first.rest
  return (others.map (fromLeft first.node)).weaken first.fewer
termination_by 11 * ts.length + 4
decreasing_by
  · omega
  · have := first.fewer
    omega

/-- The further terms of a sum. -/
def sumTail (ts : List Located) :
    Except Fault (Parsed (List (BinaryOp × Expr)) (ts.length + 1)) :=
  match accept? BinaryOp.additive? ts with
  | some (op, ⟨rest, h⟩) => do
    let operand ← product rest
    have fewer := Nat.lt_trans operand.fewer h
    let others ← sumTail operand.rest
    return (others.map ((op, operand.node) :: ·)).insideTail fewer
  | none => .ok (.stop [] ts)
termination_by 11 * ts.length

def product (ts : List Located) : Except Fault (Parsed Expr ts.length) := do
  let first ← factor ts
  let others ← productTail first.rest
  return (others.map (fromLeft first.node)).weaken first.fewer
termination_by 11 * ts.length + 3
decreasing_by
  · omega
  · have := first.fewer
    omega

/-- The further factors of a product. -/
def productTail (ts : List Located) :
    Except Fault (Parsed (List (BinaryOp × Expr)) (ts.length + 1)) :=
  match accept? BinaryOp.multiplicative? ts with
  | some (op, ⟨rest, h⟩) => do
    let operand ← factor rest
    have fewer := Nat.lt_trans operand.fewer h
    let others ← productTail operand.rest
    return (others.map ((op, operand.node) :: ·)).insideTail fewer
  | none => .ok (.stop [] ts)
termination_by 11 * ts.length

def factor (ts : List Located) : Except Fault (Parsed Expr ts.length) :=
  match accept? UnaryOp.sign? ts with
  | some (op, ⟨rest, h⟩) => do
    let operand ← factor rest
    return (operand.map (.unary op)).inside h
  | none => power ts
termination_by 11 * ts.length + 2

/-- A power binds tighter than a sign before it and looser than one
in its exponent. -/
def power (ts : List Located) : Except Fault (Parsed Expr ts.length) := do
  let first ← atom ts
  let base ← suffixes first.node first.rest
  have atMost := Nat.lt_of_lt_of_le base.fewer first.fewer
  match after? (.symbol .power) base.rest with
  | some ⟨rest, h⟩ =>
    have fewer := Nat.lt_trans h atMost
    let exponent ← factor rest
    return (exponent.map (.binary .pow base.node)).inside fewer
  | none => return base.weaken first.fewer
termination_by 11 * ts.length + 1
decreasing_by
  · omega
  · have := first.fewer
    omega
  · omega

/-- The calls and subscripts after an atom. -/
def suffixes (e : Expr) (ts : List Located) : Except Fault (Parsed Expr (ts.length + 1)) :=
  match after? (.symbol .openParen) ts with
  | some ⟨rest, h⟩ => do
    let arguments ← sequence .closeParen rest
    have fewer := Nat.lt_trans arguments.fewer h
    let whole ← suffixes (.call e arguments.node (next ts).position) arguments.rest
    return whole.insideTail fewer
  | none =>
    match after? (.symbol .openBracket) ts with
    | some ⟨rest, h⟩ => do
      let index ← expression rest
      let ⟨rest', h'⟩ ← expect .closeBracket index.rest
      have fewer := Nat.lt_trans h' (Nat.lt_trans index.fewer h)
      let whole ← suffixes (.subscript e index.node (next ts).position) rest'
      return whole.insideTail fewer
    | none => .ok (.stop e ts)
termination_by 11 * ts.length

/-- Expressions divided by commas up to a closing symbol; a comma may
stand before it. -/
def sequence (close : Symbol) (ts : List Located) :
    Except Fault (Parsed (List Expr) ts.length) :=
  match after? (.symbol close) ts with
  | some ⟨rest, h⟩ => .ok ⟨[], rest, h⟩
  | none => do
    let item ← expression ts
    refuseReserved item.rest
    match after? (.symbol .comma) item.rest with
    | some ⟨rest, h⟩ =>
      have fewer := Nat.lt_trans h item.fewer
      let others ← sequence close rest
      return (others.map (item.node :: ·)).inside fewer
    | none =>
      let ⟨rest, h⟩ ← expect close item.rest
      return ⟨[item.node], rest, Nat.lt_trans h item.fewer⟩
termination_by 11 * ts.length + 10

/-- A group is its expression; a tuple has a comma or nothing in its
parentheses. -/
def atom (ts : List Located) : Except Fault (Parsed Expr ts.length) :=
  match after? (.symbol .openParen) ts with
  | some ⟨rest, h⟩ =>
    match after? (.symbol .closeParen) rest with
    | some ⟨rest', h'⟩ => .ok ⟨.tuple [], rest', Nat.lt_trans h' h⟩
    | none => do
      let first ← expression rest
      have fewer := Nat.lt_trans first.fewer h
      match after? (.symbol .closeParen) first.rest with
      | some ⟨rest', h'⟩ => return ⟨first.node, rest', Nat.lt_trans h' fewer⟩
      | none =>
        let ⟨rest', h'⟩ ← expect .comma first.rest
        have fewer' := Nat.lt_trans h' fewer
        let others ← sequence .closeParen rest'
        return (others.map fun items => .tuple (first.node :: items)).inside fewer'
  | none =>
    match after? (.symbol .openBracket) ts with
    | some ⟨rest, h⟩ => do
      let items ← sequence .closeBracket rest
      return (items.map .list).inside h
    | none => leaf ts
termination_by 11 * ts.length

end

/-! ## Statements -/

/-- Whether a token divides statements. -/
def isSeparator : Token → Bool
  | .newline => true
  | .symbol .semicolon => true
  | _ => false

/-- The tokens after the statement of a reserved word: up to a
separator outside brackets. -/
def skipStatement (depth : Nat) : List Located → List Located
  | [] => []
  | t :: rest =>
    if t.token = .endOfInput ∨ (depth = 0 ∧ isSeparator t.token = true) then t :: rest
    else skipStatement (Lexer.depthAfter depth (some t.token)) rest

/-- Passing over a statement leaves no more tokens. -/
theorem length_skipStatement_le (depth : Nat) (ts : List Located) :
    (skipStatement depth ts).length ≤ ts.length := by
  induction ts generalizing depth with
  | nil => simp [skipStatement]
  | cons t rest ih =>
    unfold skipStatement
    split
    · exact Nat.le_refl _
    · exact Nat.le_succ_of_le (ih _)

def statement (ts : List Located) : Except Fault (Parsed Statement ts.length) :=
  match accept? reserved? ts with
  | some (word, ⟨rest, h⟩) =>
    .ok ⟨.forbidden word (next ts).position, skipStatement 0 rest,
      Nat.lt_of_le_of_lt (length_skipStatement_le 0 rest) h⟩
  | none => do
    let first ← expression ts
    match accept? BinaryOp.assignment? first.rest with
    | some (op, ⟨rest, h⟩) =>
      let value ← expression rest
      return (value.map fun v => .assign first.node op v (next ts).position).weaken
        (Nat.le_of_lt (Nat.lt_trans h first.fewer))
    | none => return first.map .expression

/-- The tokens from the next statement on. -/
def skipSeparators : List Located → List Located
  | [] => []
  | t :: rest => if isSeparator t.token then skipSeparators rest else t :: rest

/-- Passing over separators leaves no more tokens. -/
theorem length_skipSeparators_le (ts : List Located) :
    (skipSeparators ts).length ≤ ts.length := by
  induction ts with
  | nil => simp [skipSeparators]
  | cons t rest ih =>
    unfold skipSeparators
    split
    · exact Nat.le_succ_of_le ih
    · exact Nat.le_refl _

/-- The statements of a list of tokens, which must be used up. -/
def statements (ts : List Located) : Except Fault (List Statement) :=
  if (next (skipSeparators ts)).token = .endOfInput then .ok []
  else do
    let first ← statement (skipSeparators ts)
    let after := (next first.rest).token
    if after = .endOfInput ∨ isSeparator after = true then
      return first.node :: (← statements first.rest)
    else unexpected first.rest
termination_by ts.length
decreasing_by exact Nat.lt_of_lt_of_le first.fewer (length_skipSeparators_le ts)

/-- The script of a list of tokens. -/
def ofTokens (ts : List Located) : Except Fault Script := do
  match ← statements ts with
  | [] => .error (.syntaxAt .start .emptyScript)
  | body => return { body }

/-- Reads a script. -/
def parse (source : String) : Except Fault Script := do
  ofTokens (← tokenize .script source)

end CrapsStrategy.Script
