import CrapsStrategy.Proofs.Except
import CrapsStrategy.Rule.Run

/-!
# `CrapsStrategy.Proofs.Rule.Run`: what one step can do

`StepContext.run` goes through a registry and half a dozen verbs.
`StepContext.Acts` says once what a verb that succeeds has led to: one
envelope of its action, and a store that differs only where a
variable was set. `StepContext.Ran` says the same of a whole step.
`ran_run` is the inversion lemma, and later modules read the effects
of steps off it instead of unfolding `run`.

No step changes the mode or the modes of a store (`mode_run`). A
switch is only asked for, and only for a mode that the store has
(`hasMode_of_run`).
-/

set_option autoImplicit false

namespace CrapsStrategy

namespace StepContext

/-- What a verb that stands for an action has led to: the store after
it, and the envelope. -/
inductive Acts (c : StepContext) (store : Store) (call : VerbCall) :
    ActionKind → Store → Envelope → Prop
  | wager (w : Wager) (bet : String) (x : Binary64) (hfinite : x.isFinite = true)
      (hpositive : Binary64.less 0 x = true) :
      Acts c store call w.kind store (annotated call (.wager .rule c.ruleId w bet x))
  | clear (bet : String) : Acts c store call .clear store (annotated call (.clear .rule c.ruleId bet))
  | switchMode (mode : String) (hmode : store.hasMode mode = true) :
      Acts c store call .switchMode store (.switchMode .rule c.ruleId mode)
  | setvar (var : String) (v : Value) :
      Acts c store call .setvar (store.set var v) (.setvar .rule c.ruleId var v)

/-- What a step has led to. A script leaves other variables behind,
and reports its assignments. A verb may change no bet while one is
being settled. -/
inductive Ran (c : StepContext) (store : Store) : Step → Store → List Envelope → Prop
  | statements (source : String) (script : Script)
      (hran : (script.run c.snapshot.scope store.vars).2 = none) :
      Ran c store (.statements source script)
        { store with vars := (script.run c.snapshot.scope store.vars).1.vars }
        ((script.run c.snapshot.scope store.vars).1.assigned.map fun (var, v) =>
          .setvar .rule c.ruleId var v)
  | call (call : VerbCall) (action : ActionKind) (after : Store) (e : Envelope)
      (hverb : c.verbs.resolve? call.verb = some action)
      (htimely : action.mutatesBets = true → c.snapshot.event ≠ .betResolved)
      (hacts : Acts c store call action after e) : Ran c store (.call call) after [e]

variable {c : StepContext} {store after : Store} {call : VerbCall} {e : Envelope}

/-- A wager that succeeds has a finite positive amount. -/
theorem acts_of_wager {w : Wager} (h : c.wager store call w = .ok e) :
    Acts c store call w.kind store e := by
  obtain ⟨bet, _, h⟩ := bind_eq_ok.1 h
  obtain ⟨amount, _, h⟩ := bind_eq_ok.1 h
  obtain ⟨x, hx, h⟩ := bind_eq_ok.1 h
  obtain ⟨y, _, hchecked⟩ := bind_eq_ok.1 hx
  cases h
  split at hchecked
  · rename_i hgood
    rw [Bool.and_eq_true] at hgood
    cases hchecked
    exact .wager w bet _ hgood.1 hgood.2
  · cases hchecked

/-- A bet that is cleared is an act of the verb. -/
theorem acts_of_clear (h : c.clear call = .ok e) : Acts c store call .clear store e := by
  obtain ⟨bet, _, h⟩ := bind_eq_ok.1 h
  cases h
  exact .clear bet

/-- A switch that succeeds names a mode of the store. -/
theorem acts_of_switchMode (h : c.switchMode store call = .ok e) :
    Acts c store call .switchMode store e := by
  obtain ⟨named, _, h⟩ := bind_eq_ok.1 h
  dsimp only at h
  split at h
  · rename_i hmode
    cases h
    exact .switchMode _ hmode
  · cases h

/-- A variable that is set is an act of the verb, and the only one that
changes the store. -/
theorem acts_of_setvar (h : c.setvar store call = .ok (after, e)) :
    Acts c store call .setvar after e := by
  obtain ⟨var, _, h⟩ := bind_eq_ok.1 h
  obtain ⟨v, _, h⟩ := bind_eq_ok.1 h
  cases h
  exact .setvar var v

/-- Whatever a verb does without a fault is an act of its kind. -/
theorem acts_of_act {action : ActionKind} (h : c.act store call action = .ok (after, e)) :
    Acts c store call action after e := by
  cases action with
  | set | press | reduce =>
    obtain ⟨asked, hasked, h⟩ := bind_eq_ok.1 h
    cases h
    exact acts_of_wager hasked
  | clear =>
    obtain ⟨asked, hasked, h⟩ := bind_eq_ok.1 h
    cases h
    exact acts_of_clear hasked
  | switchMode =>
    obtain ⟨asked, hasked, h⟩ := bind_eq_ok.1 h
    cases h
    exact acts_of_switchMode hasked
  | setvar => exact acts_of_setvar h

/-- A step that succeeds has done one of the things that steps do. -/
theorem ran_run {step : Step} {es : List Envelope} (h : c.run store step = (after, .ok es)) :
    Ran c store step after es := by
  cases step with
  | statements source script =>
    simp only [run] at h
    cases hran : (script.run c.snapshot.scope store.vars).2 with
    | some fault =>
      rw [hran] at h
      cases h
    | none =>
      rw [hran] at h
      cases h
      exact .statements source script hran
  | call call =>
    simp only [run] at h
    cases hcall : c.runCall store call with
    | error fault =>
      rw [hcall] at h
      cases h
    | ok result =>
      rw [hcall] at h
      cases h
      unfold runCall at hcall
      split at hcall
      · cases hcall
      · rename_i action hverb
        split at hcall
        · cases hcall
        · rename_i htimely
          -- The verb is known and its moment right, so what it did is left
          -- to say.
          refine .call call action _ _ hverb (fun hmutates hevent => htimely ?_)
            (acts_of_act hcall)
          simp [hmutates, hevent]

/-- A verb changes neither the mode nor the modes of the store. -/
theorem Acts.mode_eq {action : ActionKind} (h : Acts c store call action after e) :
    after.mode = store.mode ∧ after.modes = store.modes := by
  cases h <;> exact ⟨rfl, rfl⟩

/-- Nor does a step, whether it succeeds or not. -/
theorem mode_run (c : StepContext) (store : Store) (step : Step) :
    (c.run store step).1.mode = store.mode ∧ (c.run store step).1.modes = store.modes := by
  cases step with
  | statements source script =>
    simp only [run]
    split <;> exact ⟨rfl, rfl⟩
  | call call =>
    cases hcall : c.runCall store call with
    | error fault => simp only [run, hcall, and_self]
    | ok result =>
      have hran : Ran c store (.call call) result.1 [result.2] :=
        ran_run (by simp only [run, hcall])
      simp only [run, hcall]
      cases hran with
      | call _ action _ _ hverb htimely hacts => exact hacts.mode_eq

/-- Notes and the working flag leave the action of an envelope alone. -/
@[simp]
theorem action_annotated (call : VerbCall) (e : Envelope) :
    (annotated call e).action = e.action := by
  unfold annotated
  split <;> rfl

/-- The envelope of a verb is for the action that it stands for. -/
theorem Acts.action_eq {action : ActionKind} (h : Acts c store call action after e) :
    e.action = action := by
  cases h with
  | wager w bet x hfinite hpositive => rw [action_annotated]; rfl
  | clear bet => rw [action_annotated]; rfl
  | switchMode mode hmode => rfl
  | setvar var v => rfl

/-- A switch that a step asks for names a mode of the store. -/
theorem hasMode_of_run {step : Step} {es : List Envelope}
    (h : c.run store step = (after, .ok es)) (he : e ∈ es) (hswitch : e.action = .switchMode) :
    store.hasMode e.notes = true := by
  cases ran_run h with
  | statements source script hran =>
    obtain ⟨assigned, _, rfl⟩ := List.mem_map.1 he
    cases hswitch
  | call call action _ asked hverb htimely hacts =>
    rw [List.mem_singleton] at he
    subst he
    rw [hacts.action_eq] at hswitch
    cases hacts with
    | switchMode mode hmode => exact hmode
    | wager w bet x hfinite hpositive => cases w <;> cases hswitch
    | clear bet => cases hswitch
    | setvar var v => cases hswitch

end StepContext

end CrapsStrategy
