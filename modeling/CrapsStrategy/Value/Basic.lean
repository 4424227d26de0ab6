import CrapsStrategy.Binary64.Integral
import CrapsStrategy.KeyMap

/-!
# `CrapsStrategy.Value.Basic`: dynamic values

A value is what expressions compute and variables hold: a truth
value, a 64-bit integer, a double, a text, a list, a map, or nothing.
Truth values count as the numbers 0 and 1.
-/

set_option autoImplicit false

namespace CrapsStrategy

/-- A dynamic value. The entries of a map are ascending by key. -/
inductive Value where
  | bool (b : Bool)
  | int (i : Int64)
  | float (x : Binary64)
  | text (s : String)
  | list (items : List Value)
  | map (entries : List (String × Value))
  | null

/-- Variables by name. -/
abbrev Variables := KeyMap Value

namespace Value

instance : Inhabited Value := ⟨null⟩

/-- The kinds of values that messages tell apart. -/
inductive Kind where
  | bool | int | float | text | list | map | null
deriving DecidableEq, Repr

/-- The name of a kind. -/
def Kind.name : Kind → String
  | bool => "bool"
  | int => "int"
  | float => "float"
  | text => "str"
  | list => "list"
  | map => "map"
  | null => "none"

def kind : Value → Kind
  | bool _ => .bool
  | int _ => .int
  | float _ => .float
  | text _ => .text
  | list _ => .list
  | map _ => .map
  | null => .null

/-- Truth: zero, empty and nothing are false. NaN is true. -/
def truthy : Value → Bool
  | bool b => b
  | int i => i != 0
  | float x => !x.equal 0
  | text s => !s.isEmpty
  | list items => !items.isEmpty
  | map entries => !entries.isEmpty
  | null => false

/-- A value as a double, if it is a number or a truth value. -/
def number? : Value → Option Binary64
  | bool b => some (if b then 1 else 0)
  | int i => some (.ofInt i.toInt)
  | float x => some x
  | _ => none

def isNumber (v : Value) : Bool :=
  v.number?.isSome

/-- An integer as a value, wrapped to 64 bits. -/
def ofInt (i : Int) : Value :=
  int (Int64.ofInt i)

/-- A counter as a value, wrapped to 64 bits. -/
def ofNat (n : Nat) : Value :=
  ofInt n

/-- A value that may be missing. -/
def ofOption {α : Type} (f : α → Value) : Option α → Value
  | some a => f a
  | none => null

/-- A variable map as a value. -/
def ofVariables (vars : Variables) : Value :=
  map vars.entries

end Value

end CrapsStrategy
