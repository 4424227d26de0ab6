import CrapsStrategy.Value.Basic

/-!
# `CrapsStrategy.Value.Order`: comparing values

Values are equal when they are equal numbers, as doubles, or equal
texts, or lists or maps equal item by item. Numbers are ordered as
doubles and texts by code points; nothing else is ordered. A
`Comparison` says which of two values it accepts, and for which it
has no answer.
-/

set_option autoImplicit false

namespace CrapsStrategy

namespace Value

/-- Equality of two numbers as doubles. -/
def numbersEqual (v w : Value) : Option Bool :=
  match v.number?, w.number? with
  | some x, some y => some (x.equal y)
  | _, _ => none

mutual

/-- Equality with numbers taken as doubles; values of unrelated kinds
are unequal. -/
def looseEq : Value → Value → Bool
  | text s, text t => s == t
  | null, null => true
  | list items, list others => looseEqItems items others
  | map entries, map others => looseEqEntries entries others
  | v, w => (numbersEqual v w).getD false

def looseEqItems : List Value → List Value → Bool
  | [], [] => true
  | v :: items, w :: others => looseEq v w && looseEqItems items others
  | _, _ => false

def looseEqEntries : List (String × Value) → List (String × Value) → Bool
  | [], [] => true
  | (k, v) :: entries, (l, w) :: others =>
    k == l && looseEq v w && looseEqEntries entries others
  | _, _ => false

end

/-- The order of two texts, by code points. -/
def compareText (s t : String) : Ordering :=
  if s < t then .lt else if t < s then .gt else .eq

/-- The order of two numbers or of two texts. -/
def compare? (v w : Value) : Option Ordering :=
  match v, w with
  | text s, text t => some (compareText s t)
  | v, w =>
    match v.number?, w.number? with
    | some x, some y => x.compare? y
    | _, _ => none

/-- Whether a text is a part of another. -/
def isPart (part : List Char) : List Char → Bool
  | [] => part.isEmpty
  | c :: rest => part.isPrefixOf (c :: rest) || isPart part rest

/-- Membership in a list, of a part in a text, or of a key in a map.
-/
def contains? (container item : Value) : Option Bool :=
  match container, item with
  | list items, item => some (items.any fun v => looseEq v item)
  | text whole, text part => some (isPart part.toList whole.toList)
  | map entries, text key => some (entries.lookup key).isSome
  | _, _ => none

end Value

/-- The comparisons of both dialects. -/
inductive Comparison where
  | lt | gt | le | ge | eq | ne | isIn | notIn
deriving DecidableEq, Repr

namespace Comparison

/-- The written form. -/
def symbol : Comparison → String
  | lt => "<"
  | gt => ">"
  | le => "<="
  | ge => ">="
  | eq => "=="
  | ne => "!="
  | isIn => "in"
  | notIn => "not in"

/-- Whether a comparison holds; none when the kinds do not support
it. -/
def test? (op : Comparison) (left right : Value) : Option Bool :=
  match op with
  | eq => some (left.looseEq right)
  | ne => some !left.looseEq right
  | lt => (left.compare? right).map (· == .lt)
  | gt => (left.compare? right).map (· == .gt)
  | le => (left.compare? right).map (· != .gt)
  | ge => (left.compare? right).map (· != .lt)
  | isIn => right.contains? left
  | notIn => (right.contains? left).map (!·)

end Comparison

end CrapsStrategy
