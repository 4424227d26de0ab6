import CrapsStrategy.Json.Basic
import CrapsStrategy.Proofs.KeyMap

/-!
# `CrapsStrategy.Proofs.Json.Ordered`: documents with their fields in order

The fields of an object are ascending by name, each name once. The
type of documents does not say so, as an object nests its fields in a
list; `Json.isOrdered` says it of a document and of all its parts.
-/

set_option autoImplicit false

namespace CrapsStrategy

instance {α : Type} (entries : List (String × α)) : Decidable (Entries.Ascending entries) :=
  inferInstanceAs (Decidable (entries.Pairwise fun a b => a.1 < b.1))

namespace Json

mutual

/-- Whether the fields of every object in a document are ascending by
name. -/
def isOrdered : Json → Bool
  | .array items => areOrdered items
  | .object fields => decide (Entries.Ascending fields) && haveOrdered fields
  | _ => true

/-- Whether all documents of a list are in order. -/
def areOrdered : List Json → Bool
  | [] => true
  | item :: items => isOrdered item && areOrdered items

/-- Whether the documents of all fields are in order. -/
def haveOrdered : List (String × Json) → Bool
  | [] => true
  | (_, field) :: fields => isOrdered field && haveOrdered fields

end

/-- A list is in order if each item is. The items themselves may come in
any order. -/
theorem areOrdered_iff {items : List Json} :
    areOrdered items = true ↔ ∀ item ∈ items, item.isOrdered = true := by
  induction items with
  | nil => simp [areOrdered]
  | cons item items ih => simp [areOrdered, ih]

/-- The documents of some fields are in order if each is. -/
theorem haveOrdered_iff {fields : List (String × Json)} :
    haveOrdered fields = true ↔ ∀ field ∈ fields, field.2.isOrdered = true := by
  induction fields with
  | nil => simp [haveOrdered]
  | cons field fields ih =>
    obtain ⟨name, j⟩ := field
    simp [haveOrdered, ih]

/-- An object is in order if its names ascend and the documents of its
fields are in order. -/
theorem isOrdered_object {fields : List (String × Json)} :
    (object fields).isOrdered = true ↔
      Entries.Ascending fields ∧ ∀ field ∈ fields, field.2.isOrdered = true := by
  rw [isOrdered, Bool.and_eq_true, decide_eq_true_iff, haveOrdered_iff]

/-- A field of a document in order is in order. -/
theorem isOrdered_of_field? {j field : Json} {name : String} (h : j.isOrdered = true)
    (hfield : j.field? name = some field) : field.isOrdered = true := by
  cases j with
  | object fields =>
    obtain ⟨before, after, rfl, _⟩ := List.lookup_eq_some_iff.1 hfield
    exact (isOrdered_object.1 h).2 (name, field) (by simp)
  | _ => cases hfield

/-- An array is in order if each item is. -/
theorem isOrdered_array {items : List Json} :
    (array items).isOrdered = true ↔ ∀ item ∈ items, item.isOrdered = true := by
  rw [isOrdered, areOrdered_iff]

/-- Fields that are put in order make an object that is in order. -/
theorem isOrdered_ofFields {fields : List (String × Json)}
    (h : ∀ field ∈ fields, field.2.isOrdered = true) : (ofFields fields).isOrdered = true := by
  refine isOrdered_object.2 ⟨.ofList fields, fun field hfield => ?_⟩
  exact h field (Entries.mem_of_mem_ofList hfield)

end Json

end CrapsStrategy
