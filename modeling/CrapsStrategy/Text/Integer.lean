/-!
# `CrapsStrategy.Text.Integer`: decimal integers in text

An integer text is an optional sign and at least one ASCII digit;
leading zeros are fine and nothing else may stand around. A natural
text may carry a plus sign, never a minus sign.
-/

set_option autoImplicit false

namespace CrapsStrategy.Text

/-- An ASCII digit. -/
def isDigit (c : Char) : Bool :=
  decide ('0' ≤ c) && decide (c ≤ '9')

/-- An ASCII letter. -/
def isLetter (c : Char) : Bool :=
  (decide ('a' ≤ c) && decide (c ≤ 'z')) || (decide ('A' ≤ c) && decide (c ≤ 'Z'))

/-- The number of a digit. -/
def digitValue (c : Char) : Nat :=
  c.toNat - 48

/-- The number that a list of digits spells. -/
def natOfDigits (digits : List Char) : Nat :=
  digits.foldl (fun n c => 10 * n + digitValue c) 0

/-- The number of a nonempty list of digits. -/
def digits? (cs : List Char) : Option Nat :=
  if cs ≠ [] ∧ cs.all isDigit = true then some (natOfDigits cs) else none

/-- Reads an integer. -/
def int? (s : String) : Option Int :=
  match s.toList with
  | '-' :: digits => (digits? digits).map fun n => -(n : Int)
  | '+' :: digits => (digits? digits).map fun n => (n : Int)
  | digits => (digits? digits).map fun n => (n : Int)

/-- Reads a natural number. -/
def nat? (s : String) : Option Nat :=
  match s.toList with
  | '+' :: digits => digits? digits
  | digits => digits? digits

/-- Reads a natural number of at most `limit`. -/
def natUpTo? (limit : Nat) (s : String) : Option Nat :=
  (nat? s).filter fun n => decide (n ≤ limit)

/-- Reads an integer between two bounds. -/
def intWithin? (low high : Int) (s : String) : Option Int :=
  (int? s).filter fun i => decide (low ≤ i) && decide (i ≤ high)

end CrapsStrategy.Text
