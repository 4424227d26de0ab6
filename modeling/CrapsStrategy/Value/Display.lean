import CrapsStrategy.Decimal.Layout
import CrapsStrategy.Value.Basic

/-!
# `CrapsStrategy.Value.Display`: values in messages

Numbers have plain digits, texts stand as they are, lists are in
brackets and maps in braces, their items divided by commas.
-/

set_option autoImplicit false

namespace CrapsStrategy.Value

/-- Texts divided by a comma. -/
def commaSeparated (parts : List String) : String :=
  ", ".intercalate parts

mutual

/-- The text of a value. -/
def display : Value → String
  | bool b => if b then "true" else "false"
  | int i => toString i.toInt
  | float x => x.text
  | text s => s
  | list items => "[" ++ commaSeparated (displayItems items) ++ "]"
  | map entries => "\x7b" ++ commaSeparated (displayEntries entries) ++ "\x7d"
  | null => "none"

def displayItems : List Value → List String
  | [] => []
  | v :: items => display v :: displayItems items

def displayEntries : List (String × Value) → List String
  | [] => []
  | (k, v) :: entries => (k ++ ": " ++ display v) :: displayEntries entries

end

end CrapsStrategy.Value
