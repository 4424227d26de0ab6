import CrapsStrategy.Proofs.KeyMap
import CrapsStrategy.Script.Eval
import CrapsStrategy.Snapshot

/-!
# `CrapsStrategy.Proofs.Snapshot`: names in a snapshot

A name without points stands for a user variable, or else for a field
(`root?_eq`, `named_scope`). The flat namespace has the user variables
and the fields that are listed (`get?_merged`). `unlisted` are the
fields that are not: `isSome_field?_iff` has them all.
-/

set_option autoImplicit false

namespace CrapsStrategy

/-- The answer of a scope to a name that may have a value. -/
def Scope.answer (name : String) : Option Value → Except Fault Value
  | some v => .ok v
  | none => .error (.unknownVariable name)

/-- In a scope that is made of variables a name has their value, or is
unknown. -/
theorem Scope.named_ofVariables (vars : Variables) (name : String) :
    (ofVariables vars).named name = answer name (vars.get? name) := by
  unfold named ofVariables
  cases vars.get? name <;> rfl

namespace Snapshot

/-- The fields of some names, listed with their values. -/
theorem lookup_fields (s : Snapshot) (names : List String) (name : String) :
    (names.filterMap fun field => (s.field? field).map fun v => (field, v)).lookup name =
      if name ∈ names then s.field? name else none := by
  induction names with
  | nil => rfl
  | cons first rest ih =>
    cases hfirst : s.field? first with
    | none =>
      rw [List.filterMap_cons_none (by rw [hfirst]; rfl), ih]
      by_cases hname : name = first
      · simp [hname, hfirst]
      · simp [hname]
    | some v =>
      rw [List.filterMap_cons_some (by rw [hfirst]; rfl), Entries.lookup_cons, ih]
      by_cases hname : name = first
      · simp [hname, hfirst]
      · simp [hname]

/-- The flat namespace of a snapshot: the user variables, and the
fields that they do not hide. -/
theorem get?_merged (s : Snapshot) (name : String) :
    s.merged.get? name =
      (s.vars.get? name).or (if name ∈ fieldNames then s.field? name else none) := by
  rw [merged, KeyMap.get?_override, KeyMap.get?_ofList, ← List.filterMap_reverse, lookup_fields]
  simp

/-! ### Names without points -/

/-- A variable hides the field of its name. -/
theorem root?_eq (s : Snapshot) (name : String) :
    s.root? name = (s.vars.get? name).or (s.field? name) := by
  unfold root?
  cases s.vars.get? name <;> rfl

/-- What a name without points stands for: a user variable, or else a
field. -/
theorem lookup_of_plain (s : Snapshot) {name : String} (hname : '.' ∉ name.toList) :
    s.lookup name = Scope.answer name (s.root? name) := by
  have hsegments : segments name = (name, []) := by
    unfold segments
    rw [List.splitOn_eq_singleton hname]
    simp
  have hpath : s.path? name [] = s.root? name := by
    show (s.root? name).bind (fun v => [].foldlM descend? v) = _
    cases s.root? name <;> rfl
  unfold lookup
  rw [hsegments]
  simp only [hpath]
  cases s.root? name <;> rfl

/-- A name without a point is looked up as it stands, since only a path
has further segments. -/
theorem named_scope (s : Snapshot) {name : String} (hname : '.' ∉ name.toList) :
    s.scope.named name = Scope.answer name (s.root? name) := by
  unfold Scope.named scope
  rw [s.lookup_of_plain hname]
  cases s.root? name <;> rfl

/-- The name `mode` on both ways. -/
theorem mode_eq (s : Snapshot) :
    s.lookup "mode" = .ok ((s.vars.get? "mode").getD (.text s.mode)) ∧
      s.merged.get? "mode" = some ((s.vars.get? "mode").getD (.text s.mode)) := by
  have hfield : s.field? "mode" = some (.text s.mode) := rfl
  constructor
  · rw [s.lookup_of_plain (by decide), root?_eq, hfield]
    cases hvar : s.vars.get? "mode" <;> rfl
  · rw [get?_merged, if_pos (by decide), hfield]
    cases hvar : s.vars.get? "mode" <;> rfl

/-! ### Fields that are not listed -/

/-- The fields that the flat namespace does not have. -/
def unlisted : List String :=
  ["event_type", "comeout", "bets", "vars"]

/-- With these the list of the flat namespace is complete. -/
theorem isSome_field?_iff (s : Snapshot) (name : String) :
    (s.field? name).isSome = true ↔ name ∈ fieldNames ∨ name ∈ unlisted := by
  constructor
  · intro h
    refine Decidable.byContradiction fun hname => ?_
    have hnone : s.field? name = none := by
      unfold field?
      split <;> first | rfl | exact absurd (by decide) hname
    rw [hnone] at h
    cases h
  · intro h
    have hall : ∀ name ∈ fieldNames ++ unlisted, (s.field? name).isSome = true := by
      simp [fieldNames, unlisted, field?]
    exact hall name (List.mem_append.2 h)

end Snapshot

end CrapsStrategy
