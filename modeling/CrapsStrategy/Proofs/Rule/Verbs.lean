import CrapsStrategy.Proofs.KeyMap
import CrapsStrategy.Proofs.Text.Lowercase
import CrapsStrategy.Rule.Verbs
import CrapsStrategy.Strategy.Check

/-!
# `CrapsStrategy.Proofs.Rule.Verbs`: what registries know

A registry is asked in any case (`resolve?_lower`) and answers with what
was registered last (`resolve?_register`). The standard one has a verb
for every action under its name, and one more (`resolve?_standard`). The
verbs that a check knows are the same (`isSome_resolve?_standard`).
-/

set_option autoImplicit false

namespace CrapsStrategy

/-- The names of actions are in lower case. -/
@[simp]
theorem ActionKind.lower_name (action : ActionKind) : Text.lower action.name = action.name := by
  cases action <;> decide +kernel

namespace Verbs

/-- A verb is looked up without its case. -/
@[simp]
theorem resolve?_lower (verbs : Verbs) (verb : String) :
    verbs.resolve? (Text.lower verb) = verbs.resolve? verb := by
  rw [resolve?, Text.lower_lower]
  rfl

/-- No verb is known to begin with. -/
@[simp]
theorem resolve?_empty (verb : String) : empty.resolve? verb = none := rfl

/-- A verb that is registered is known, under its name in any case, and
no other is lost. -/
theorem resolve?_register (verbs : Verbs) (name : String) (action : ActionKind) (verb : String) :
    (verbs.register name action).resolve? verb =
      if Text.lower verb = Text.lower name then some action else verbs.resolve? verb :=
  KeyMap.get?_insert verbs.actions (Text.lower name) action (Text.lower verb)

/-- A verb stands for the action that it was registered for. -/
theorem resolve?_register_self (verbs : Verbs) (name : String) (action : ActionKind) :
    (verbs.register name action).resolve? name = some action := by
  rw [resolve?_register, if_pos rfl]

/-- No verb gives way to one of another name. -/
theorem resolve?_register_of_ne (verbs : Verbs) {name verb : String} (action : ActionKind)
    (h : Text.lower verb ≠ Text.lower name) :
    (verbs.register name action).resolve? verb = verbs.resolve? verb := by
  rw [resolve?_register, if_neg h]

/-- The action of a verb of the standard registry. -/
theorem resolve?_standard (verb : String) :
    standard.resolve? verb =
      if Text.lower verb = "switch_profile" then some .switchMode
      else ActionKind.ofName? (Text.lower verb) := by
  have hprofile : Text.lower "switch_profile" = "switch_profile" := by
    decide +kernel
  rw [standard, resolve?_register, hprofile]
  refine ite_congr rfl (fun _ => rfl) fun _ => ?_
  simp only [ActionKind.all, List.foldl_cons, List.foldl_nil, resolve?_register,
    ActionKind.lower_name, resolve?_empty, ActionKind.ofName?]
  -- The names are unlike, so it does not matter from which end they are gone through.
  by_cases hknown : ∃ action : ActionKind, action.name = Text.lower verb
  · obtain ⟨action, haction⟩ := hknown
    rw [← haction]
    cases action <;> rfl
  · have hunlike (action : ActionKind) : Text.lower verb ≠ action.name :=
      fun hsame => hknown ⟨action, hsame.symm⟩
    rw [List.find?_eq_none.2 fun action _ => by simpa using (hunlike action).symm]
    simp only [hunlike, if_false]

/-- The standard verbs are the names of the actions. -/
theorem resolve?_standard_name (action : ActionKind) :
    standard.resolve? action.name = some action := by
  cases action <;> decide +kernel

/-- The standard registry has the verbs that steps are checked for. -/
theorem isSome_resolve?_standard (verb : String) :
    (standard.resolve? verb).isSome = Check.isKnownVerb verb := by
  rw [resolve?_standard, Check.isKnownVerb]
  by_cases hprofile : Text.lower verb = "switch_profile"
  · rw [if_pos hprofile, hprofile]
    rfl
  · rw [if_neg hprofile, Bool.eq_iff_iff, ActionKind.ofName?, List.find?_isSome]
    simp [ActionKind.all, ActionKind.name, Check.knownVerbs, hprofile,
      @eq_comm _ (Text.lower verb)]

end Verbs

end CrapsStrategy
