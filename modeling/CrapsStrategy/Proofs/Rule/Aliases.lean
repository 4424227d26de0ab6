import CrapsStrategy.Proofs.Rule.Step

/-!
# `CrapsStrategy.Proofs.Rule.Aliases`: other names for verbs

A step text is split into arguments by its first word as written, and
what the word stands for is looked up when the step runs. The words after
a name that is not a standard one are a bet and an amount. That is what
the verbs want that change bets, so another name for one of these does
the same (`run_betCall`). It is not what the verbs want that switch modes
and set variables, and with another name these miss their arguments
(`seen_alias_iff`).
-/

set_option autoImplicit false

namespace CrapsStrategy

/-! ### Kinds of faults -/

/-- What a step fails for, without the particulars. -/
inductive StepFault.Kind where
  | unknownVerb | missing | badAmount | unknownMode | untimely
  | syntaxError | unknownVariable | unknownPath | disallowed | evaluation
deriving DecidableEq, Repr

/-- The kind of a fault. An argument that is missing is one kind,
whichever it is. -/
def StepFault.kind : StepFault → StepFault.Kind
  | unknownVerb _ => .unknownVerb
  | missing _ _ => .missing
  | badAmount _ _ _ => .badAmount
  | unknownMode _ => .unknownMode
  | untimely _ => .untimely
  | expression (.syntaxAt _ _) => .syntaxError
  | expression (.unknownVariable _) => .unknownVariable
  | expression (.unknownPath _) => .unknownPath
  | expression (.disallowedAt _ _) => .disallowed
  | expression (.evaluation _) => .evaluation

/-- A fault of an expression is no missing argument. -/
theorem StepFault.kind_expression_ne_missing (fault : Fault) :
    (expression fault).kind ≠ .missing := by
  cases fault <;> exact nofun

namespace StepContext

/-- What is seen of a run: the store after it, and the envelopes or the
kind of the fault. -/
def seen (ran : Store × Except StepFault (List Envelope)) :
    Store × Except StepFault.Kind (List Envelope) :=
  (ran.1, ran.2.mapError StepFault.kind)

/-- A success is seen as it is. -/
@[simp]
theorem seen_ok (store : Store) (es : List Envelope) : seen (store, .ok es) = (store, .ok es) := rfl

/-- Of a fault only its kind is seen. -/
@[simp]
theorem seen_error (store : Store) (fault : StepFault) :
    seen (store, .error fault) = (store, .error fault.kind) := rfl

end StepContext

/-! ### Arguments -/

namespace Step

/-- The call of a bet and an amount. -/
def betCall (verb : String) (arguments : List String) : VerbCall :=
  { VerbCall.bare verb with
    bet := arguments.head?.map BetKey.canonical, amount := trailingAmount? arguments }

/-- The call of a mode. -/
def modeCall (verb : String) (arguments : List String) : VerbCall :=
  { VerbCall.bare verb with
    mode := if arguments.isEmpty then none else some (unwords arguments) }

/-- The call of a variable and an amount. -/
def varCall (verb : String) (arguments : List String) : VerbCall :=
  { VerbCall.bare verb with var := arguments.head?, amount := trailingAmount? arguments }

/-- The words after a verb that neither switches modes nor sets a
variable. -/
theorem ofWords_eq_betCall {verb : String} (hmode : namesMode verb = false)
    (hvar : verb ≠ "setvar") (arguments : List String) :
    ofWords verb arguments = betCall verb arguments := by
  rw [ofWords, hmode, if_neg Bool.false_ne_true, if_neg hvar]
  rfl

/-- The words after a name that is not a standard verb. -/
theorem ofWords_of_resolve?_eq_none {a : String} (h : Verbs.standard.resolve? a = none)
    (arguments : List String) :
    ofWords (Text.lower a) arguments = betCall (Text.lower a) arguments := by
  have hunknown (name : String) (hname : (Verbs.standard.resolve? name).isSome = true) :
      Text.lower a ≠ name := by
    intro hsame
    rw [← hsame, Verbs.resolve?_lower, h] at hname
    cases hname
  refine ofWords_eq_betCall ?_ (hunknown "setvar" (by decide +kernel)) arguments
  have hmode := hunknown "switch_mode" (by decide +kernel)
  have hprofile := hunknown "switch_profile" (by decide +kernel)
  simp [namesMode, hmode, hprofile]

/-- The words of a switch are joined to the name of the mode. -/
theorem ofWords_switchMode (arguments : List String) :
    ofWords ActionKind.switchMode.name arguments =
      modeCall ActionKind.switchMode.name arguments := if_pos rfl

/-- The words of a `setvar` are a variable and a text. -/
theorem ofWords_setvar (arguments : List String) :
    ofWords ActionKind.setvar.name arguments = varCall ActionKind.setvar.name arguments := rfl

/-- The words after the name of an action that changes bets. -/
theorem ofWords_of_mutatesBets {action : ActionKind} (h : action.mutatesBets = true)
    (arguments : List String) : ofWords action.name arguments = betCall action.name arguments := by
  cases action with
  | switchMode | setvar => cases h
  | _ => exact ofWords_eq_betCall rfl (by decide) arguments

end Step

/-! ### Runs under two names -/

namespace StepContext

open Step

variable {c : StepContext} {store : Store} {action : ActionKind}

/-- A verb that changes bets does not read its own name. -/
theorem run_betCall {verb name : String} (arguments : List String)
    (hverb : c.verbs.resolve? verb = some action) (hname : c.verbs.resolve? name = some action)
    (h : action.mutatesBets = true) :
    c.run store (.call (betCall verb arguments)) =
      c.run store (.call (betCall name arguments)) := by
  rw [run_call store (betCall verb arguments) hverb, run_call store (betCall name arguments) hname]
  cases action with
  | switchMode | setvar => cases h
  | _ => rfl

/-- A bet and an amount name no mode. -/
theorem run_betCall_switchMode {verb : String} (arguments : List String)
    (hverb : c.verbs.resolve? verb = some .switchMode) :
    c.run store (.call (betCall verb arguments)) =
      (store, .error (.missing .switchMode .mode)) := by
  rw [run_call store (betCall verb arguments) hverb]
  rfl

/-- Nor do they name a variable. -/
theorem run_betCall_setvar {verb : String} (arguments : List String)
    (hverb : c.verbs.resolve? verb = some .setvar) :
    c.run store (.call (betCall verb arguments)) = (store, .error (.missing .setvar .var)) := by
  rw [run_call store (betCall verb arguments) hverb]
  rfl

/-- A switch under another name does the same only when it names no
mode. -/
theorem seen_switchMode_iff {verb name : String} (arguments : List String)
    (hverb : c.verbs.resolve? verb = some .switchMode)
    (hname : c.verbs.resolve? name = some .switchMode) :
    seen (c.run store (.call (betCall verb arguments))) =
      seen (c.run store (.call (modeCall name arguments))) ↔ arguments = [] := by
  rw [run_betCall_switchMode arguments hverb]
  cases arguments with
  | nil =>
    have hmissing : c.run store (.call (modeCall name [])) =
        (store, .error (.missing .switchMode .mode)) := by
      rw [run_call store (modeCall name []) hname]
      rfl
    rw [hmissing]
    exact iff_of_true rfl rfl
  | cons first rest =>
    have hmode : (modeCall name (first :: rest)).mode = some (unwords (first :: rest)) := rfl
    rw [run_switchMode hmode hname]
    split <;> simp [StepFault.kind]

/-- An amount that words spell is stored, or has a fault of its own. -/
theorem storedValue_varCall_ne_missing {name var first : String} {rest : List String}
    {fault : StepFault}
    (h : c.storedValue store (varCall name (var :: first :: rest)) = .error fault) :
    fault.kind ≠ .missing := by
  have hamount : (varCall name (var :: first :: rest)).amount =
      some (.ofText (unwords (first :: rest))) := rfl
  have hvalue : (varCall name (var :: first :: rest)).value = none := rfl
  unfold storedValue at h
  rw [hvalue, hamount] at h
  unfold StepAmount.ofText at h
  dsimp only at h
  cases hread : Binary64.read? (Text.trim (unwords (first :: rest))) with
  | some x =>
    rw [hread] at h
    cases h
  | none =>
    rw [hread] at h
    dsimp only at h
    unfold evaluated at h
    split at h
    · cases h
    · cases h
      exact StepFault.kind_expression_ne_missing _

/-- A variable set under another name is the same only when its value is
missing. -/
theorem seen_setvar_iff {verb name : String} (arguments : List String)
    (hverb : c.verbs.resolve? verb = some .setvar)
    (hname : c.verbs.resolve? name = some .setvar) :
    seen (c.run store (.call (betCall verb arguments))) =
      seen (c.run store (.call (varCall name arguments))) ↔ arguments.length < 2 := by
  rw [run_betCall_setvar arguments hverb]
  -- The misread step is told that its value is missing. The call by name is
  -- told something else as soon as it has a value.
  match arguments with
  | [] =>
    have hmissing : c.run store (.call (varCall name [])) =
        (store, .error (.missing .setvar .var)) := by
      rw [run_call store (varCall name []) hname]
      rfl
    rw [hmissing]
    exact iff_of_true rfl (by decide)
  | [var] =>
    have hvar : (varCall name [var]).var = some var := rfl
    have hmissing : c.storedValue store (varCall name [var]) =
        .error (.missing .setvar .value) := rfl
    rw [run_setvar hvar hname, hmissing]
    exact iff_of_true rfl (by simp)
  | var :: first :: rest =>
    have hvar : (varCall name (var :: first :: rest)).var = some var := rfl
    rw [run_setvar hvar hname]
    refine iff_of_false ?_ (by simp)
    cases hvalue : c.storedValue store (varCall name (var :: first :: rest)) with
    | ok v => simp [stored]
    | error fault =>
      intro hsame
      exact storedValue_varCall_ne_missing hvalue
        (Except.error.inj (congrArg Prod.snd hsame)).symm

/-- Whether the words after another name for an action are misread: they
name the mode of a switch, or a variable and the value to set. -/
def IsMisread (action : ActionKind) (arguments : List String) : Prop :=
  action = .switchMode ∧ arguments ≠ [] ∨ action = .setvar ∧ 2 ≤ arguments.length

/-- A step text with another name for an action is seen to do what it
does with the name of the action, but for a switch that names a mode and
for a variable that is given a value. -/
theorem seen_alias_iff {a : String} (hne : a ≠ "") (hsolid : Text.IsSolid a.toList)
    (hnew : Verbs.standard.resolve? a = none) (hverbs : c.verbs = Verbs.standard.register a action)
    {arguments : String} (halias : assignments? (a ++ " " ++ arguments) = none)
    (hname : assignments? (action.name ++ " " ++ arguments) = none) (store : Store) :
    ∃ aliased named, read? (a ++ " " ++ arguments) = some aliased ∧
      read? (action.name ++ " " ++ arguments) = some named ∧
      (seen (c.run store aliased) = seen (c.run store named) ↔
        ¬ IsMisread action (Text.words arguments)) := by
  have hsolidName : Text.IsSolid action.name.toList := by
    cases action <;> decide +kernel
  have hneName : action.name ≠ "" := by
    cases action <;> decide
  refine ⟨_, _, read?_call halias (Text.words_prepend hne hsolid arguments),
    read?_call hname (Text.words_prepend hneName hsolidName arguments), ?_⟩
  have hverb : c.verbs.resolve? (Text.lower a) = some action := by
    rw [hverbs, Verbs.resolve?_lower, Verbs.resolve?_register_self]
  -- The name itself is standard still, for the new name is another.
  have hstandard : c.verbs.resolve? action.name = some action := by
    rw [hverbs, Verbs.resolve?_register_of_ne, Verbs.resolve?_standard_name]
    intro hsame
    rw [← Verbs.resolve?_lower, ← hsame, Verbs.resolve?_lower, Verbs.resolve?_standard_name] at hnew
    cases hnew
  rw [ofWords_of_resolve?_eq_none hnew, ActionKind.lower_name]
  unfold IsMisread
  cases action with
  | switchMode =>
    rw [ofWords_switchMode, seen_switchMode_iff _ hverb hstandard]
    simp
  | setvar =>
    rw [ofWords_setvar, seen_setvar_iff _ hverb hstandard]
    simp
  | _ =>
    rw [ofWords_of_mutatesBets rfl, run_betCall _ hverb hstandard rfl]
    simp

/-! ### Two other names -/

/-- A come-out at which there is one more verb. -/
def withVerb (name : String) (action : ActionKind) : StepContext :=
  { comeout with verbs := Verbs.standard.register name action }

/-- A store with two modes to switch between. -/
def twoModes : Store :=
  .start (.ofList [("units", .int 10)]) (.ofList ["Main", "Recovery"])

/-- A switch under another name is read as a bet and misses its mode. -/
theorem run_goto :
    assignments? "goto Recovery" = none ∧ assignments? "switch_mode Recovery" = none ∧
      ∃ aliased named, read? "goto Recovery" = some aliased ∧
        read? "switch_mode Recovery" = some named ∧
        ((withVerb "goto" .switchMode).run twoModes aliased).2 =
          .error (.missing .switchMode .mode) ∧
        ((withVerb "goto" .switchMode).run twoModes named).2 =
          .ok [.switchMode .rule "rule:#1" "Recovery"] := by
  have halias : assignments? "goto Recovery" = none := by
    decide +kernel
  have hname : assignments? "switch_mode Recovery" = none := by
    decide +kernel
  have haliased : Text.words "goto Recovery" = ["goto", "Recovery"] := by
    decide +kernel
  have hnamed : Text.words "switch_mode Recovery" = ["switch_mode", "Recovery"] := by
    decide +kernel
  refine ⟨halias, hname, _, _, read?_call halias haliased, read?_call hname hnamed, ?_, ?_⟩
  · rfl
  · rfl

/-- A press under another name presses. -/
theorem seen_bump :
    ∃ aliased named, read? "bump place_6 units" = some aliased ∧
      read? "press place_6 units" = some named ∧
      seen ((withVerb "bump" .press).run twoModes aliased) =
        seen ((withVerb "bump" .press).run twoModes named) := by
  have hverbs : (withVerb "bump" .press).verbs = Verbs.standard.register "bump" .press := rfl
  have halias : assignments? ("bump" ++ " " ++ "place_6 units") = none := by
    decide +kernel
  have hname : assignments? (ActionKind.press.name ++ " " ++ "place_6 units") = none := by
    decide +kernel
  obtain ⟨aliased, named, haliased, hnamed, hseen⟩ :=
    seen_alias_iff (by decide) (by decide +kernel) (by decide +kernel) hverbs halias hname twoModes
  exact ⟨aliased, named, haliased, hnamed, hseen.2 (by simp [IsMisread])⟩

end StepContext

end CrapsStrategy
