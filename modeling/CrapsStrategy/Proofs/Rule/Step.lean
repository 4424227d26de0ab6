import CrapsStrategy.Proofs.Rule.Dropped
import CrapsStrategy.Proofs.Rule.Verbs
import CrapsStrategy.Proofs.Text.Words

/-!
# `CrapsStrategy.Proofs.Rule.Step`: steps and their verbs

A step text is read as statements when it compiles with an assignment,
and else as a call of its first word (`read?_statements`, `read?_call`).

A call fails for its verb when nothing is registered under it, and never
for another reason: what a verb asks for may be missing, unfit or
untimely, but the verb is known by then (`faultsIn_act`). So whether a
step resolves under the standard verbs can be told from its text
(`resolves_read?_iff`).
-/

set_option autoImplicit false

namespace CrapsStrategy

/-! ### Faults of verbs -/

/-- A fault of what a verb asks for, and not of the verb. -/
def StepFault.OfRequest : StepFault → Prop
  | unknownVerb _ => False
  | _ => True

namespace StepContext

variable (c : StepContext) (store : Store) (call : VerbCall)

/-- A missing argument is a fault of the request. -/
theorem faultsIn_need {α : Type} (action : ActionKind) (argument : Argument) (x : Option α) :
    FaultsIn StepFault.OfRequest (need action argument x) := by
  cases x with
  | none => exact FaultsIn.error_iff.2 trivial
  | some a => exact .ok a

/-- An expression that fails is a fault of the request. -/
theorem faultsIn_evaluated {α : Type} (x : Except Fault α) :
    FaultsIn StepFault.OfRequest (evaluated x) := by
  cases x with
  | error fault => exact FaultsIn.error_iff.2 trivial
  | ok a => exact .ok a

/-- An amount that is no positive number is a fault of the request. -/
theorem faultsIn_positiveAmount (action : ActionKind) (bet : String) (amount : StepAmount) :
    FaultsIn StepFault.OfRequest (c.positiveAmount store action bet amount) := by
  have hnumber : FaultsIn StepFault.OfRequest (c.amountNumber store amount) := by
    cases amount with
    | literal x => exact .ok x
    | formula text => exact faultsIn_evaluated _
    | invalid shown => exact .ok _
  exact .bind hnumber fun x _ => .ite (.pure x) (FaultsIn.error_iff.2 trivial)

/-- A bet fails for what it asks for. -/
theorem faultsIn_wager (wager : Wager) :
    FaultsIn StepFault.OfRequest (c.wager store call wager) :=
  .bind (faultsIn_need _ _ _) fun bet _ => .bind (faultsIn_need _ _ _) fun amount _ =>
    .bind (c.faultsIn_positiveAmount store _ bet amount) fun _ _ => .pure _

/-- A switch of the mode fails by its request only. -/
theorem faultsIn_switchMode : FaultsIn StepFault.OfRequest (c.switchMode store call) :=
  .bind (faultsIn_need _ _ _) fun _ _ => .ite (.pure _) (FaultsIn.error_iff.2 trivial)

/-- Setting a variable fails by its request only. -/
theorem faultsIn_setvar : FaultsIn StepFault.OfRequest (c.setvar store call) := by
  refine .bind (faultsIn_need _ _ _) fun var _ => .bind ?_ fun v _ => .pure _
  unfold storedValue
  split
  · exact .ok _
  · exact .ok _
  · exact faultsIn_evaluated _
  · exact FaultsIn.error_iff.2 trivial

/-- A verb that is known only fails for what it asks for. -/
theorem faultsIn_act (action : ActionKind) :
    FaultsIn StepFault.OfRequest (c.act store call action) := by
  cases action with
  | set | press | reduce => exact .bind (c.faultsIn_wager store call _) fun _ _ => .pure _
  | clear => exact .bind (.bind (faultsIn_need _ _ _) fun _ _ => .pure _) fun _ _ => .pure _
  | switchMode => exact .bind (c.faultsIn_switchMode store call) fun _ _ => .pure _
  | setvar => exact c.faultsIn_setvar store call

/-- A verb is unknown where nothing is registered under it. -/
theorem runCall_eq_unknownVerb_iff {verb : String} :
    c.runCall store call = .error (.unknownVerb verb) ↔
      c.verbs.resolve? call.verb = none ∧ verb = call.verb := by
  unfold runCall
  split
  · rename_i hnone
    rw [Except.error.injEq, StepFault.unknownVerb.injEq]
    exact ⟨fun h => ⟨hnone, h.symm⟩, fun h => h.2.symm⟩
  · rename_i action haction
    rw [haction]
    refine iff_of_false (fun h => ?_) (by simp)
    split at h
    · cases h
    · exact c.faultsIn_act store call action _ h

variable {c store}

/-! ### Runs of calls -/

/-- The run of a verb that is known. -/
theorem run_call {action : ActionKind} (store : Store) (call : VerbCall)
    (h : c.verbs.resolve? call.verb = some action) :
    c.run store (.call call) =
      match (if action.mutatesBets && c.snapshot.event == .betResolved then
        .error (.untimely action) else c.act store call action) with
      | .ok (store, e) => (store, .ok [e])
      | .error fault => (store, .error fault) := by
  have hcall : c.runCall store call =
      if action.mutatesBets && c.snapshot.event == .betResolved then .error (.untimely action)
      else c.act store call action := by
    simp only [runCall, h]
  have hrun : c.run store (.call call) = match c.runCall store call with
      | .ok (store, e) => (store, .ok [e])
      | .error fault => (store, .error fault) := rfl
  rw [hrun, hcall]

/-- A switch to a mode that is named. -/
theorem run_switchMode {call : VerbCall} {mode : String} (hmode : call.mode = some mode)
    (hverb : c.verbs.resolve? call.verb = some .switchMode) :
    c.run store (.call call) = (store,
      if store.hasMode (Text.trim mode) then .ok [.switchMode .rule c.ruleId (Text.trim mode)]
      else .error (.unknownMode (Text.trim mode))) := by
  have hswitch : c.switchMode store call =
      if store.hasMode (Text.trim mode) then .ok (.switchMode .rule c.ruleId (Text.trim mode))
      else .error (.unknownMode (Text.trim mode)) := by
    rw [switchMode, hmode]
    rfl
  rw [run_call store call hverb, act, hswitch]
  cases store.hasMode (Text.trim mode) <;> rfl

/-- What comes of a value for a variable: it is stored and reported, or a
fault stops the step before. -/
def stored (c : StepContext) (store : Store) (var : String) :
    Except StepFault Value → Store × Except StepFault (List Envelope)
  | .ok v => (store.set var v, .ok [.setvar .rule c.ruleId var v])
  | .error fault => (store, .error fault)

/-- A variable that is named gets the value that is stored, if there is
one. -/
theorem run_setvar {call : VerbCall} {var : String} (hvar : call.var = some var)
    (hverb : c.verbs.resolve? call.verb = some .setvar) :
    c.run store (.call call) = c.stored store var (c.storedValue store call) := by
  rw [run_call store call hverb, act, setvar, hvar]
  cases c.storedValue store call <;> rfl

end StepContext

/-! ### Verbs of steps -/

namespace Step

/-- A step never fails for its verb where the verbs are the standard
ones. -/
def Resolves (step : Step) : Prop :=
  ∀ (c : StepContext) (store : Store), c.verbs = .standard →
    ∀ verb, (c.run store step).2 ≠ .error (.unknownVerb verb)

/-- A script names no verb. -/
theorem resolves_statements (source : String) (script : Script) :
    (statements source script).Resolves := by
  intro c store _ verb h
  simp only [StepContext.run] at h
  split at h <;> cases h

/-- A call fails as the step that it makes does. -/
theorem run_call_eq_error_iff {c : StepContext} {store : Store} {call : VerbCall}
    {fault : StepFault} :
    (c.run store (.call call)).2 = .error fault ↔ c.runCall store call = .error fault := by
  simp only [StepContext.run]
  cases c.runCall store call <;> simp

/-- A call resolves if its verb is known. The verb is looked up before
anything else, so an unknown one always comes to that fault. -/
theorem resolves_call_iff {call : VerbCall} :
    (Step.call call).Resolves ↔ Check.isKnownVerb call.verb = true := by
  unfold Resolves
  simp only [ne_eq, run_call_eq_error_iff, StepContext.runCall_eq_unknownVerb_iff,
    ← Verbs.isSome_resolve?_standard, Option.isSome_iff_ne_none]
  constructor
  · intro h hnone
    exact h .comeout StepContext.tenUnits rfl call.verb ⟨hnone, rfl⟩
  · intro h c store hverbs verb hunknown
    rw [hverbs] at hunknown
    exact h hunknown.1

/-- The first word is the verb, whatever the verb makes of the others. -/
theorem verb_ofWords (verb : String) (arguments : List String) :
    (ofWords verb arguments).verb = verb := by
  unfold ofWords
  split
  · rfl
  · split <;> rfl

/-- The case of a verb does not matter. -/
theorem isKnownVerb_lower (verb : String) :
    Check.isKnownVerb (Text.lower verb) = Check.isKnownVerb verb := by
  rw [Check.isKnownVerb, Text.lower_lower]
  rfl

/-- Nor do blanks around a script. -/
theorem compile_trim (text : String) : Script.compile (Text.trim text) = Script.compile text := by
  rw [Script.compile, Text.trim_trim]
  rfl

/-- A text has assignments when it compiles to a script with some. -/
theorem assignments?_eq_some_iff {text : String} {script : Script} :
    assignments? text = some script ↔
      Script.compile text = .ok script ∧ script.hasAssignments = true := by
  unfold assignments?
  rw [Option.filter_eq_some_iff]
  cases Script.compile text <;> simp [Except.toOption]

/-- The blanks around a text do not matter for whether it is a script
that assigns. -/
theorem assignments?_trim (text : String) : assignments? (Text.trim text) = assignments? text := by
  unfold assignments?
  rw [compile_trim]

/-- A text with assignments is read as statements. -/
theorem read?_statements {text : String} {script : Script} (h : assignments? text = some script)
    (hwords : Text.words text ≠ []) : read? text = some (.statements (Text.trim text) script) := by
  obtain ⟨verb, arguments, hwords⟩ := List.exists_cons_of_ne_nil hwords
  unfold read?
  dsimp only
  rw [Text.words_trim, hwords, assignments?_trim, h]

/-- A text without assignments is read as a call of its first word. -/
theorem read?_call {text verb : String} {arguments : List String} (h : assignments? text = none)
    (hwords : Text.words text = verb :: arguments) :
    read? text = some (.call (ofWords (Text.lower verb) arguments)) := by
  unfold read?
  dsimp only
  rw [Text.words_trim, hwords, assignments?_trim, h]

/-- Only a blank text is no step. -/
theorem isSome_read?_iff {text : String} : (read? text).isSome = true ↔ Text.words text ≠ [] := by
  constructor
  · intro h hwords
    unfold read? at h
    dsimp only at h
    rw [Text.words_trim, hwords] at h
    cases h
  · intro hwords
    cases h : assignments? text with
    | some script => rw [read?_statements h hwords]; rfl
    | none =>
      obtain ⟨verb, arguments, hwords⟩ := List.exists_cons_of_ne_nil hwords
      rw [read?_call h hwords]
      rfl

/-- A text step resolves when its first word is a verb or when it has
assignments. -/
theorem resolves_read?_iff {text : String} {step : Step} (h : read? text = some step) :
    step.Resolves ↔ Check.isKnownVerb (Text.firstWord text) = true ∨
      ∃ script, Script.compile text = .ok script ∧ script.hasAssignments = true := by
  have hwords := isSome_read?_iff.1 (Option.isSome_of_eq_some h)
  simp only [← assignments?_eq_some_iff]
  cases hassigns : assignments? text with
  | some script =>
    rw [read?_statements hassigns hwords] at h
    cases h
    exact iff_of_true (resolves_statements _ _) (.inr ⟨script, rfl⟩)
  | none =>
    obtain ⟨verb, arguments, hwords⟩ := List.exists_cons_of_ne_nil hwords
    rw [read?_call hassigns hwords] at h
    cases h
    rw [resolves_call_iff, verb_ofWords, isKnownVerb_lower, Text.firstWord, hwords]
    simp

end Step

end CrapsStrategy
