import CrapsStrategy.Fault

/-!
# `CrapsStrategy.Token.Stream`: reading a list of tokens

A parser takes a list of tokens and returns a node and the tokens
after it (`Parsed`), with a bound on how many those are. Here are the
steps all parsers share: looking at the next token, taking it when it
is of a kind, and insisting on a symbol.
-/

set_option autoImplicit false

namespace CrapsStrategy

/-- A node and the tokens after it, fewer than `bound`. -/
structure Parsed (α : Type) (bound : Nat) where
  node : α
  rest : List Located
  fewer : rest.length < bound

namespace Parsed

variable {α β : Type} {bound : Nat}

/-- The node changed by `f`. -/
def map (f : α → β) (p : Parsed α bound) : Parsed β bound :=
  ⟨f p.node, p.rest, p.fewer⟩

/-- The same node under a greater bound. -/
def weaken {larger : Nat} (p : Parsed α bound) (h : bound ≤ larger) : Parsed α larger :=
  ⟨p.node, p.rest, Nat.lt_of_lt_of_le p.fewer h⟩

/-- The same node under a strictly greater bound. -/
def inside {larger : Nat} (p : Parsed α bound) (h : bound < larger) : Parsed α larger :=
  p.weaken (Nat.le_of_lt h)

/-- The same node under a strictly greater bound, where the bounds
allow for no token at all. -/
def insideTail {larger : Nat} (p : Parsed α (bound + 1)) (h : bound < larger) :
    Parsed α (larger + 1) :=
  p.weaken (Nat.succ_le_succ (Nat.le_of_lt h))

/-- A node that takes no token. -/
def stop (node : α) (ts : List Located) : Parsed α (ts.length + 1) :=
  ⟨node, ts, Nat.lt_succ_self _⟩

end Parsed

namespace TokenStream

/-- The tokens after the first of `ts`. -/
abbrev Rest (ts : List Located) := { rest : List Located // rest.length < ts.length }

/-- The tokens after the first. -/
def Rest.tail (t : Located) (rest : List Located) : Rest (t :: rest) :=
  ⟨rest, Nat.lt_succ_self _⟩

/-- Tokens after the first of the rest. -/
def Rest.cons {ts : List Located} (t : Located) (r : Rest ts) : Rest (t :: ts) :=
  ⟨r.val, Nat.lt_succ_of_lt r.property⟩

/-- The next token; after the last one the end of the input. -/
def next (ts : List Located) : Located :=
  ts.headD default

/-- What `f` makes of the next token, and the tokens after it. -/
def accept? {β : Type} (f : Token → Option β) : (ts : List Located) → Option (β × Rest ts)
  | [] => none
  | t :: rest => (f t.token).map fun b => (b, .tail t rest)

/-- The tokens after the next one, when it is `token`. -/
def after? (token : Token) (ts : List Located) : Option (Rest ts) :=
  (accept? (fun t => if t = token then some () else none) ts).map Prod.snd

/-- The fault of a next token that nothing starts with. -/
def unexpected {α : Type} (ts : List Located) : Except Fault α :=
  .error (.syntaxAt (next ts).position (.unexpected (next ts).token))

/-- The tokens after a symbol that must be next. -/
def expect (wanted : Symbol) (ts : List Located) : Except Fault (Rest ts) :=
  match after? (.symbol wanted) ts with
  | some rest => .ok rest
  | none => .error (.syntaxAt (next ts).position (.expected wanted (next ts).token))

end TokenStream

/-- The value of a word that stands for one. -/
def Value.ofWord? : Keyword → Option Value
  | .true => some (.bool true)
  | .false => some (.bool false)
  | .none => some .null
  | _ => none

/-- The value of a literal token. -/
def Token.literal? : Token → Option Value
  | .int i => some (.int i)
  | .float x => some (.float x)
  | .text s => some (.text s)
  | .keyword word => Value.ofWord? word
  | .name _ | .reserved _ | .symbol _ | .newline | .endOfInput => none

/-- The comparison a symbol writes. -/
def Comparison.ofToken? : Token → Option Comparison
  | .symbol .less => some .lt
  | .symbol .greater => some .gt
  | .symbol .atMost => some .le
  | .symbol .atLeast => some .ge
  | .symbol .equal => some .eq
  | .symbol .notEqual => some .ne
  | _ => none

end CrapsStrategy
