import CrapsStrategy.Condition.Basic
import CrapsStrategy.Token.Lexer
import CrapsStrategy.Token.Stream

/-!
# `CrapsStrategy.Condition.Parser`: conditions from text

The grammar, loosest binding first:

* disjunction: conjunctions divided by `or`;
* conjunction: negations divided by `and`;
* negation: a comparison behind any number of `not`;
* comparison: a term, or two around one comparison symbol;
* term: a literal, a path, or a disjunction in parentheses.

A list of one part is that part. Blank text is the condition that
always holds.
-/

set_option autoImplicit false

namespace CrapsStrategy.Condition

open TokenStream

/-- Parts under a connective; a single part stands for itself. -/
def joined (wrap : List Condition → Condition) : List Condition → Condition
  | [part] => part
  | parts => wrap parts

/-- The condition of a literal or a path. -/
def ofToken? : Token → Option Condition
  | .name text => some (path text)
  | token => token.literal?.map literal

-- A call has fewer tokens, or as many and a rule that binds tighter. The
-- summand behind the length is the rank of the rule.
mutual

def disjunction (ts : List Located) : Except Fault (Parsed Condition ts.length) := do
  let first ← conjunction ts
  let others ← orTail first.rest
  return (others.map fun parts => joined or (first.node :: parts)).weaken first.fewer
termination_by 6 * ts.length + 5
decreasing_by
  · omega
  · have := first.fewer
    omega

/-- The further parts of a disjunction. -/
def orTail (ts : List Located) : Except Fault (Parsed (List Condition) (ts.length + 1)) :=
  match after? (.keyword .or) ts with
  | some ⟨rest, h⟩ => do
    let part ← conjunction rest
    have fewer := Nat.lt_trans part.fewer h
    let others ← orTail part.rest
    return (others.map (part.node :: ·)).insideTail fewer
  | none => .ok (.stop [] ts)
termination_by 6 * ts.length

def conjunction (ts : List Located) : Except Fault (Parsed Condition ts.length) := do
  let first ← negation ts
  let others ← andTail first.rest
  return (others.map fun parts => joined and (first.node :: parts)).weaken first.fewer
termination_by 6 * ts.length + 4
decreasing_by
  · omega
  · have := first.fewer
    omega

/-- The further parts of a conjunction. -/
def andTail (ts : List Located) : Except Fault (Parsed (List Condition) (ts.length + 1)) :=
  match after? (.keyword .and) ts with
  | some ⟨rest, h⟩ => do
    let part ← negation rest
    have fewer := Nat.lt_trans part.fewer h
    let others ← andTail part.rest
    return (others.map (part.node :: ·)).insideTail fewer
  | none => .ok (.stop [] ts)
termination_by 6 * ts.length

def negation (ts : List Located) : Except Fault (Parsed Condition ts.length) :=
  match after? (.keyword .not) ts with
  | some ⟨rest, h⟩ => do
    let inner ← negation rest
    return (inner.map not).inside h
  | none => comparison ts
termination_by 6 * ts.length + 3

def comparison (ts : List Located) : Except Fault (Parsed Condition ts.length) := do
  let left ← term ts
  match accept? Comparison.ofToken? left.rest with
  | some (op, ⟨rest, h⟩) =>
    have fewer := Nat.lt_trans h left.fewer
    let right ← term rest
    return (right.map (compare op left.node)).inside fewer
  | none => return left
termination_by 6 * ts.length + 2

def term (ts : List Located) : Except Fault (Parsed Condition ts.length) :=
  match after? (.symbol .openParen) ts with
  | some ⟨rest, h⟩ => do
    let inner ← disjunction rest
    let ⟨rest', h'⟩ ← expect .closeParen inner.rest
    return ⟨inner.node, rest', Nat.lt_trans h' (Nat.lt_trans inner.fewer h)⟩
  | none =>
    match accept? ofToken? ts with
    | some (c, ⟨rest, h⟩) => .ok ⟨c, rest, h⟩
    | none => unexpected ts
termination_by 6 * ts.length + 1

end

/-- The condition of a list of tokens, which must be used up. -/
def ofTokens (ts : List Located) : Except Fault Condition := do
  let whole ← disjunction ts
  if (next whole.rest).token = .endOfInput then return whole.node else unexpected whole.rest

/-- Reads a condition. -/
def parse (source : String) : Except Fault Condition :=
  if Text.isBlankText source then .ok (literal (.bool true))
  else do ofTokens (← tokenize .condition source)

/-- Reads a condition without the blanks around it. -/
def compile (source : String) : Except Fault Condition :=
  parse (Text.trim source)

end CrapsStrategy.Condition
