import CrapsStrategy.Proofs.Rule.Reported
import CrapsStrategy.Proofs.Session.Journal
import CrapsStrategy.Proofs.Session.Settling
import CrapsStrategy.Proofs.Snapshot

/-!
# `CrapsStrategy.Proofs.Session.Variables`: what names stand for in a run

The variables of a run are those that it started with and all writes
since, in order (`Logged.vars_eq`). Scripts and `setvar` write, also
scripts that fault half-way; switches of mode do not. So a name stands
for what was last written to it, and only then for what it had at the
start.

User variables hide the fields of a snapshot, on the way to rules and
steps (`lookup`) as on the way to templates (`merged`). The name
`mode` is used up at the start, so it stands for the active mode, but
only until something is written to it: then it stands for that, for
the rest of the run, whatever the mode is (`Logged.mode_lookup`).
-/

set_option autoImplicit false

namespace CrapsStrategy

/-! ### What a run writes -/

/-- Switches of mode write nothing. -/
@[simp]
theorem Store.vars_follow (s : Store) (es : List Envelope) : (s.follow es).vars = s.vars := by
  have hswitch : ∀ (s : Store) (mode : String), (s.switchMode mode).vars = s.vars := by
    intro s mode
    unfold switchMode
    split <;> rfl
  induction es generalizing s with
  | nil => rfl
  | cons e es ih =>
    rw [follow_cons, ih]
    split
    · exact hswitch s e.notes
    · rfl

namespace Controller

/-- The writes of some steps that run in order. -/
def writes (verbs : Verbs) (snapshot : Snapshot) (store : Store) :
    List (String × Step) → List (String × Value)
  | [] => []
  | (ruleId, step) :: rest =>
    let c : StepContext := { verbs, ruleId, snapshot }
    c.written store step ++
      writes verbs snapshot ((c.run store step).1.follow (asked c store step)) rest

/-- The steps of a pass leave the variables with all that they wrote, in
order. -/
theorem vars_emission (verbs : Verbs) (snapshot : Snapshot) (store : Store)
    (steps : List (String × Step)) :
    (emission verbs snapshot store steps).1.vars =
      store.vars.assignAll (writes verbs snapshot store steps) := by
  induction steps generalizing store with
  | nil => rfl
  | cons first rest ih =>
    obtain ⟨ruleId, step⟩ := first
    -- The rest starts from what this step has left.
    simp only [emission, writes]
    rw [ih, Store.vars_follow, StepContext.vars_run, Variables.assignAll_append]

end Controller

/-- The writes of a pass. -/
def Turn.written {τ : Type} [BettingTable τ] (t : Turn τ) : List (String × Value) :=
  Controller.writes t.before.verbs t.snapshot t.before.store
    (Controller.stepsOf (Controller.rulesAt t.before.engine.rules
      (t.before.engine.pass t.snapshot).2))

namespace Controller

variable {τ : Type} [BettingTable τ] {strategy : Strategy} {log : List (Turn τ)}
  {c : Controller τ}

/-- The variables of a run are those of the strategy, but for the one
called `mode`, and all writes since. -/
theorem Logged.vars_eq (h : Logged strategy log c) :
    c.store.vars =
      Variables.assignAll (strategy.vars.erase "mode") (log.flatMap Turn.written) := by
  induction h with
  | start table c hstart =>
    obtain ⟨_, rules, _, rfl⟩ := start_eq_ok hstart
    rfl
  | handle log c event _ ih =>
    have hpass : (c.emitted event).1.vars =
        c.store.vars.assignAll (Turn.written { before := c, event }) := vars_emission ..
    rw [store_handle, hpass, ih, List.flatMap_append, Variables.assignAll_append]
    simp
  | tracker _ _ _ _ ih | table _ _ _ _ ih | withVerbs _ _ _ _ ih | withTrace _ _ _ _ ih
  | dropTrace _ _ _ ih => exact ih

/-- The name `mode` stands for what was last written to it in the run,
and for the active mode only if nothing was. So it is for rules and
steps, and for templates. -/
theorem Logged.mode_lookup (h : Logged strategy log c) (event : Event) :
    let v := (Variables.lastWrite? (log.flatMap Turn.written) "mode").getD (.text c.mode)
    (c.snapshot event).lookup "mode" = .ok v ∧ (c.snapshot event).merged.get? "mode" = some v := by
  intro v
  have hvar : (c.snapshot event).vars.get? "mode" =
      Variables.lastWrite? (log.flatMap Turn.written) "mode" := by
    show c.store.vars.get? "mode" = _
    rw [h.vars_eq, Variables.get?_assignAll, KeyMap.get?_erase, if_pos rfl, Option.or_none]
  have hmode := (c.snapshot event).mode_eq
  rw [hvar] at hmode
  exact hmode

/-- A strategy with two modes that writes to the name `mode` when a bet
is settled. -/
def renamed : Strategy :=
  let step : StepObject :=
    { action := none, bet := none, amount := none, notes := none, mode := none, var := none,
      value := none }
  { table := { bubble := false, level := 10, oddsPolicy := none }
    vars := .empty
    modes := .ofList [("Hot", .empty), ("Main", .empty)]
    rules := [{
      name := none, id := none, event := some "bet_resolved", guard := none
      steps := [
        .object { step with action := some "setvar", var := some "mode",
                            value := some (.text "Hot") }]
      thenStep := none, scope := .roll, cooldown := 0, once := false }] }

/-- The text that a variable is set to. -/
def textSet? : String × Value → Option (String × String)
  | (name, .text s) => some (name, s)
  | _ => none

/-- An assignment that the view shows is the one of that text. -/
theorem eq_of_textSet? {entry : String × Value} {name s : String}
    (h : textSet? entry = some (name, s)) : entry = (name, .text s) := by
  obtain ⟨key, v⟩ := entry
  cases v with
  | text _ =>
    cases h
    rfl
  | _ => cases h

/-- The run with the renamed mode up to its first settled bet, where the
mode is not switched. -/
theorem logged_renamed :
    ∃ (log : List (Turn PaperTable)) (c : Controller PaperTable), Logged renamed log c ∧
      c.mode = "Main" ∧ log.flatMap Turn.written = [("mode", .text "Hot")] := by
  let turn := fun c : Controller PaperTable => ({ before := c, event := lineWon } : Turn PaperTable)
  let seen := fun c : Controller PaperTable =>
    ((turn c).after.mode, (turn c).written.map textSet?)
  have hseen : (Controller.start renamed withLine).toOption.map seen =
      some ("Main", [some ("mode", "Hot")]) := by
    decide +kernel
  obtain ⟨c, hstart, hc⟩ := exists_ok_of_toOption hseen
  obtain ⟨hmode, hwritten⟩ := Prod.mk.inj hc
  refine ⟨[turn c], (c.handle lineWon).1, .handle [] c lineWon (.start _ c hstart), hmode, ?_⟩
  obtain ⟨entry, hentry, hset⟩ := List.map_eq_singleton_iff.1 hwritten
  rw [List.flatMap_singleton, hentry, eq_of_textSet? hset]

/-- From then on the name stands for that text. -/
theorem mode_lookup_renamed :
    ∃ (log : List (Turn PaperTable)) (c : Controller PaperTable), Logged renamed log c ∧
      c.mode = "Main" ∧ (c.snapshot lineWon).lookup "mode" = .ok (.text "Hot") ∧
      (c.snapshot lineWon).merged.get? "mode" = some (.text "Hot") := by
  obtain ⟨log, c, hlogged, hmode, hwritten⟩ := logged_renamed
  have hlookup := hlogged.mode_lookup lineWon
  rw [hwritten] at hlookup
  exact ⟨log, c, hlogged, hmode, hlookup⟩

/-- The name `mode` does not always stand for the active mode. -/
theorem mode_hidden_renamed :
    ∃ c : Controller PaperTable, Reachable renamed c ∧
      (c.snapshot lineWon).lookup "mode" ≠ .ok (.text c.mode) ∧
      (c.snapshot lineWon).merged.get? "mode" ≠ some (.text c.mode) := by
  obtain ⟨log, c, hlogged, hmode, hwritten⟩ := logged_renamed
  have hvar : (c.snapshot lineWon).vars.get? "mode" = some (.text "Hot") := by
    show c.store.vars.get? "mode" = _
    rw [hlogged.vars_eq, hwritten]
    rfl
  obtain ⟨hlookup, hmerged⟩ := (c.snapshot lineWon).mode_eq
  rw [hvar] at hlookup hmerged
  refine ⟨c, hlogged.reachable, ?_, ?_⟩
  · rw [hlookup, hmode]
    simp
  · rw [hmerged, hmode]
    simp

end Controller

end CrapsStrategy
