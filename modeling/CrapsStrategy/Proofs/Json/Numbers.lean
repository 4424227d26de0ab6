import CrapsStrategy.Json.Basic
import CrapsStrategy.Proofs.Binary64.Finite

/-!
# `CrapsStrategy.Proofs.Json.Numbers`: documents with numbers that fit

A number of a document is a whole number of 64 bits or a finite double.
The type of documents has others: it takes any integer, and a double may
be an infinity or no number. `Json.numbersFit` says of a document that
it has none of these in any of its parts.
-/

set_option autoImplicit false

namespace CrapsStrategy

namespace Json

/-- Whether a whole number fits 64 bits, signed when it is negative. -/
def isWord (i : Int) : Bool :=
  decide (-9223372036854775808 ≤ i ∧ i ≤ 18446744073709551615)

mutual

/-- Whether all numbers in a document are such numbers. -/
def numbersFit : Json → Bool
  | .int i => isWord i
  | .float x => x.isFinite
  | .array items => allFit items
  | .object fields => fieldsFit fields
  | _ => true

/-- Whether the numbers in all documents of a list fit. -/
def allFit : List Json → Bool
  | [] => true
  | item :: items => numbersFit item && allFit items

/-- Whether the numbers in the documents of all fields fit. -/
def fieldsFit : List (String × Json) → Bool
  | [] => true
  | (_, field) :: fields => numbersFit field && fieldsFit fields

end

/-- The numbers of a list fit if those of each item do. -/
theorem allFit_iff {items : List Json} :
    allFit items = true ↔ ∀ item ∈ items, item.numbersFit = true := by
  induction items with
  | nil => simp [allFit]
  | cons item items ih => simp [allFit, ih]

/-- The numbers of some fields fit if those of each field do. -/
theorem fieldsFit_iff {fields : List (String × Json)} :
    fieldsFit fields = true ↔ ∀ field ∈ fields, field.2.numbersFit = true := by
  induction fields with
  | nil => simp [fieldsFit]
  | cons field fields ih =>
    obtain ⟨name, j⟩ := field
    simp [fieldsFit, ih]

/-- The numbers of an array fit if those of each item do. -/
theorem numbersFit_array {items : List Json} :
    (array items).numbersFit = true ↔ ∀ item ∈ items, item.numbersFit = true := by
  rw [numbersFit, allFit_iff]

/-- The numbers of an object fit if those of each field do. -/
theorem numbersFit_object {fields : List (String × Json)} :
    (object fields).numbersFit = true ↔ ∀ field ∈ fields, field.2.numbersFit = true := by
  rw [numbersFit, fieldsFit_iff]

/-- A whole number that fits becomes a finite double. -/
theorem isFinite_of_isWord {i : Int} (h : isWord i = true) :
    (Binary64.ofInt i).isFinite = true := by
  have hbounds := of_decide_eq_true h
  exact Binary64.isFinite_ofInt (by omega)

/-- A number that fits is a finite double, whole or not. -/
theorem isFinite_of_number? {j : Json} {x : Binary64} (hfit : j.numbersFit = true)
    (h : j.number? = some x) : x.isFinite = true := by
  cases j with
  | int i =>
    cases h
    exact isFinite_of_isWord hfit
  | float x =>
    cases h
    exact hfit
  | _ => cases h

end Json

end CrapsStrategy
