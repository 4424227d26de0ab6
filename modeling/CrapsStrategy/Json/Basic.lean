import CrapsStrategy.Binary64.Basic
import CrapsStrategy.KeyMap

/-!
# `CrapsStrategy.Json.Basic`: documents

A document is a JSON value. Whole numbers that fit 64 bits, signed
when negative and unsigned otherwise, stay integers; every other
number is a double. The fields of an object are ascending by name,
each name once.
-/

set_option autoImplicit false

namespace CrapsStrategy

/-- A JSON value. -/
inductive Json where
  | null
  | bool (b : Bool)
  | int (i : Int)
  | float (x : Binary64)
  | text (s : String)
  | array (items : List Json)
  | object (fields : List (String × Json))

namespace Json

instance : Inhabited Json := ⟨null⟩

/-- An object of some fields; of two with one name the later
counts. -/
def ofFields (fields : List (String × Json)) : Json :=
  object (Entries.ofList fields)

/-- The field of an object. -/
def field? (name : String) : Json → Option Json
  | object fields => fields.lookup name
  | _ => none

/-- The text of a JSON string. -/
def text? : Json → Option String
  | text s => some s
  | _ => none

/-- The truth value of a JSON literal. -/
def bool? : Json → Option Bool
  | bool b => some b
  | _ => none

/-- A JSON number as a double. -/
def number? : Json → Option Binary64
  | int i => some (.ofInt i)
  | float x => some x
  | _ => none

/-- A whole JSON number between two bounds. -/
def intWithin? (low high : Int) : Json → Option Int
  | int i => if low ≤ i ∧ i ≤ high then some i else none
  | _ => none

/-- A whole JSON number of at most `limit`. -/
def natUpTo? (limit : Nat) (j : Json) : Option Nat :=
  (j.intWithin? 0 limit).map Int.toNat

/-- The items of a JSON array. -/
def array? : Json → Option (List Json)
  | array items => some items
  | _ => none

/-- The fields of a JSON object. -/
def object? : Json → Option (List (String × Json))
  | object fields => some fields
  | _ => none

/-- An optional field: absent when it is missing or null, refused
when `read` refuses it. -/
def optional? {α : Type} (read : Json → Option α) : Option Json → Option (Option α)
  | none => some none
  | some null => some none
  | some field => (read field).map some

/-- What may be absent, null in its place. -/
def nullable {α : Type} (f : α → Json) : Option α → Json
  | some a => f a
  | none => null

/-- A field that is left out when its value is absent. -/
def optionalField {α : Type} (name : String) (f : α → Json) : Option α → List (String × Json)
  | some a => [(name, f a)]
  | none => []

end Json

end CrapsStrategy
