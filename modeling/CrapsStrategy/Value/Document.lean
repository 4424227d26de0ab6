import CrapsStrategy.Json.Basic
import CrapsStrategy.Value.Basic

/-!
# `CrapsStrategy.Value.Document`: values in documents

Every document is a value: whole numbers of 64 signed bits are
integers, the other numbers doubles. Every value is a document again;
a double that is no number becomes `null`.
-/

set_option autoImplicit false

namespace CrapsStrategy.Value

mutual

/-- The value of a document. -/
def ofJson : Json → Value
  | .null => null
  | .bool b => bool b
  | .int i =>
    if Binary64.minInt ≤ i ∧ i ≤ Binary64.maxInt then int (Int64.ofInt i) else float (.ofInt i)
  | .float x => float x
  | .text s => text s
  | .array items => list (ofItems items)
  | .object fields => map (ofFields fields)

def ofItems : List Json → List Value
  | [] => []
  | item :: items => ofJson item :: ofItems items

def ofFields : List (String × Json) → List (String × Value)
  | [] => []
  | (name, field) :: fields => (name, ofJson field) :: ofFields fields

end

mutual

/-- The document of a value. -/
def toJson : Value → Json
  | bool b => .bool b
  | int i => .int i.toInt
  | float x => if x.isFinite then .float x else .null
  | text s => .text s
  | list items => .array (toItems items)
  | map entries => .object (toFields entries)
  | null => .null

def toItems : List Value → List Json
  | [] => []
  | v :: items => toJson v :: toItems items

def toFields : List (String × Value) → List (String × Json)
  | [] => []
  | (k, v) :: entries => (k, toJson v) :: toFields entries

end

end CrapsStrategy.Value
