import CrapsStrategy.Proofs.Json.Numbers
import CrapsStrategy.Value.Document

/-!
# `CrapsStrategy.Proofs.Value.Document`: values that are written and read

Values are written as documents and documents stand for values. The two
are not inverse: a whole number past 63 bits stands for a double, and a
double that is no number is written as `null`. Nothing else is lost on
the way from a value to its document and back (`ofJson_toJson`,
`kept_eq_self_iff`). In the other direction a document whose numbers fit
stands for a value that survives (`ofJson_toJson_ofJson`), and only
`null` stands for no value (`toJson_ofJson_ne_null`).
-/

set_option autoImplicit false

namespace CrapsStrategy.Value

/-- An integer survives, for its document is within 64 bits. -/
theorem ofJson_toJson_int (i : Int64) : ofJson (int i).toJson = int i := by
  have hleast := i.le_toInt
  have hgreatest := i.toInt_le
  rw [toJson, ofJson, if_pos ⟨hleast, hgreatest⟩, Int64.ofInt_toInt]

/-- A double survives if it is a number. -/
theorem ofJson_toJson_float {x : Binary64} (h : x.isFinite = true) :
    ofJson (float x).toJson = float x := by
  rw [toJson, if_pos h, ofJson]

/-! ### From values and back -/

mutual

/-- What is left of a value in its document: a double that is no number
is nothing, at any depth. -/
def kept : Value → Value
  | bool b => bool b
  | int i => int i
  | float x => if x.isFinite then float x else null
  | text s => text s
  | list items => list (keptItems items)
  | map entries => map (keptEntries entries)
  | null => null

/-- What is left of some items. -/
def keptItems : List Value → List Value
  | [] => []
  | v :: items => kept v :: keptItems items

/-- What is left of the values of some entries. -/
def keptEntries : List (String × Value) → List (String × Value)
  | [] => []
  | (k, v) :: entries => (k, kept v) :: keptEntries entries

end

mutual

/-- Whether all doubles of a value are numbers. -/
def isFinite : Value → Bool
  | float x => x.isFinite
  | list items => areFinite items
  | map entries => haveFinite entries
  | bool _ | int _ | text _ | null => true

/-- Whether all doubles of some items are numbers. -/
def areFinite : List Value → Bool
  | [] => true
  | v :: items => v.isFinite && areFinite items

/-- Whether all doubles in the values of some entries are numbers. -/
def haveFinite : List (String × Value) → Bool
  | [] => true
  | (_, v) :: entries => v.isFinite && haveFinite entries

end

mutual

/-- What is read back of a value is what is kept of it. -/
theorem ofJson_toJson (v : Value) : ofJson v.toJson = v.kept := by
  cases v with
  | bool b => rfl
  | int i => exact ofJson_toJson_int i
  | float x =>
    rw [kept]
    split
    · rename_i hfinite
      exact ofJson_toJson_float hfinite
    · rename_i hfinite
      rw [toJson, if_neg hfinite, ofJson]
  | text s => rfl
  | list items => exact congrArg list (ofItems_toItems items)
  | map entries => exact congrArg map (ofFields_toFields entries)
  | null => rfl

/-- What is read back of items is what is kept of them. -/
theorem ofItems_toItems (items : List Value) : ofItems (toItems items) = keptItems items := by
  cases items with
  | nil => rfl
  | cons v items => exact congrArg₂ List.cons (ofJson_toJson v) (ofItems_toItems items)

/-- What is read back of entries is what is kept of them. -/
theorem ofFields_toFields (entries : List (String × Value)) :
    ofFields (toFields entries) = keptEntries entries := by
  cases entries with
  | nil => rfl
  | cons entry entries =>
    exact congrArg₂ List.cons (congrArg (Prod.mk entry.1) (ofJson_toJson entry.2))
      (ofFields_toFields entries)

end

mutual

/-- Nothing is lost of a value whose doubles are numbers, and of no
other. -/
theorem kept_eq_self_iff (v : Value) : v.kept = v ↔ v.isFinite = true := by
  cases v with
  | float x =>
    rw [kept, isFinite]
    split
    · rename_i hfinite
      exact iff_of_true rfl hfinite
    · rename_i hfinite
      exact iff_of_false (fun h => by cases h) hfinite
  | list items =>
    rw [kept, isFinite, list.injEq]
    exact keptItems_eq_self_iff items
  | map entries =>
    rw [kept, isFinite, map.injEq]
    exact keptEntries_eq_self_iff entries
  | _ => exact iff_of_true rfl rfl

/-- Nothing is lost of items whose doubles are numbers. -/
theorem keptItems_eq_self_iff (items : List Value) :
    keptItems items = items ↔ areFinite items = true := by
  cases items with
  | nil => exact iff_of_true rfl rfl
  | cons v items =>
    rw [keptItems, areFinite, Bool.and_eq_true, List.cons.injEq, kept_eq_self_iff v,
      keptItems_eq_self_iff items]

/-- Nothing is lost of entries whose doubles are numbers. -/
theorem keptEntries_eq_self_iff (entries : List (String × Value)) :
    keptEntries entries = entries ↔ haveFinite entries = true := by
  cases entries with
  | nil => exact iff_of_true rfl rfl
  | cons entry entries =>
    obtain ⟨k, v⟩ := entry
    rw [keptEntries, haveFinite, Bool.and_eq_true, List.cons.injEq, Prod.mk.injEq,
      and_iff_right rfl, kept_eq_self_iff v, keptEntries_eq_self_iff entries]

end

/-! ### From documents and back -/

mutual

/-- The value of a document is written as a document of that value. -/
theorem ofJson_toJson_ofJson (j : Json) (h : j.numbersFit = true) :
    ofJson (ofJson j).toJson = ofJson j := by
  cases j with
  | null => rfl
  | bool b => rfl
  | int i =>
    rw [ofJson]
    split
    · exact ofJson_toJson_int _
    · exact ofJson_toJson_float (Json.isFinite_of_isWord h)
  | float x => exact ofJson_toJson_float h
  | text s => rfl
  | array items => exact congrArg list (ofItems_toItems_ofItems items h)
  | object fields => exact congrArg map (ofFields_toFields_ofFields fields h)

/-- The items of a list are written as a list of those items. -/
theorem ofItems_toItems_ofItems (items : List Json) (h : Json.allFit items = true) :
    ofItems (toItems (ofItems items)) = ofItems items := by
  cases items with
  | nil => rfl
  | cons item items =>
    obtain ⟨hitem, hitems⟩ := Bool.and_eq_true_iff.1 h
    exact congrArg₂ List.cons (ofJson_toJson_ofJson item hitem)
      (ofItems_toItems_ofItems items hitems)

/-- The fields of an object are written as an object of those fields. -/
theorem ofFields_toFields_ofFields (fields : List (String × Json))
    (h : Json.fieldsFit fields = true) :
    ofFields (toFields (ofFields fields)) = ofFields fields := by
  cases fields with
  | nil => rfl
  | cons field fields =>
    obtain ⟨name, j⟩ := field
    obtain ⟨hfield, hfields⟩ := Bool.and_eq_true_iff.1 h
    exact congrArg₂ List.cons (congrArg (Prod.mk name) (ofJson_toJson_ofJson j hfield))
      (ofFields_toFields_ofFields fields hfields)

end

/-- Only `null` stands for no value. -/
theorem eq_null_of_ofJson {j : Json} (h : ofJson j = null) : j = .null := by
  cases j with
  | null => rfl
  | int i =>
    rw [ofJson] at h
    split at h <;> cases h
  | _ => cases h

/-- Only `null` is read as a value that is written as `null`. -/
theorem toJson_ofJson_ne_null {j : Json} (hfit : j.numbersFit = true) (h : j ≠ .null) :
    (ofJson j).toJson ≠ .null := by
  intro hnull
  have hread := ofJson_toJson_ofJson j hfit
  rw [hnull] at hread
  exact h (eq_null_of_ofJson hread.symm)

end CrapsStrategy.Value
