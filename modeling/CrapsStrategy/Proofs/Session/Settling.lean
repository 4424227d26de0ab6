import CrapsStrategy.Proofs.Session.Paper
import CrapsStrategy.Proofs.Session.Reachable

/-!
# `CrapsStrategy.Proofs.Session.Settling`: bets while one is settled

The guard on verbs is the only one there is: rules change no bets while
one is being settled, but the template is not asked. `betChanges` are
the envelopes that the guard is about. `exists_run_of_emission` goes
from an envelope of a pass back to the step that asked for it, so that
what holds of one step holds of all rules of the pass. What is left of
the pass is the template.

`Reachable.settling_handle` puts this together. In such a pass the
layout moves only if a switch has changed the mode, and then by the
template of the mode after the pass alone.
-/

set_option autoImplicit false

namespace CrapsStrategy

/-! ### Envelopes of rules and of templates -/

namespace StepContext

variable {c : StepContext} {store after : Store} {step : Step} {es : List Envelope} {e : Envelope}

/-- While a bet is being settled, a step asks for no change of bets. -/
theorem mutatesBets_of_run (hevent : c.snapshot.event = .betResolved)
    (h : c.run store step = (after, .ok es)) (he : e ∈ es) : e.action.mutatesBets = false := by
  cases ran_run h with
  | statements source script hran =>
    obtain ⟨assigned, _, rfl⟩ := List.mem_map.1 he
    rfl
  | call call action _ asked hverb htimely hacts =>
    rw [List.mem_singleton.1 he, hacts.action_eq]
    cases hmutates : action.mutatesBets with
    | false => rfl
    | true => exact absurd hevent (htimely hmutates)

end StepContext

/-- A change is asked for by a template, and changes a bet. -/
theorem BetChange.envelope_mutates (change : BetChange) (mode : String) (working : KeySet) :
    (change.envelope mode working).source = .template ∧
      (change.envelope mode working).action.mutatesBets = true := by
  cases change with
  | clear bet => exact ⟨rfl, rfl⟩
  | set bet amount =>
    unfold envelope
    dsimp only
    split <;> exact ⟨rfl, rfl⟩

/-- The envelopes that change bets. -/
def betChanges (es : List Envelope) : List Envelope :=
  es.filter fun e => e.action.mutatesBets

/-- The bet changes of some envelopes are those that change bets. -/
theorem mem_betChanges {es : List Envelope} {e : Envelope} :
    e ∈ betChanges es ↔ e ∈ es ∧ e.action.mutatesBets = true :=
  List.mem_filter

/-- There are no bet changes exactly when no envelope changes a bet. -/
theorem betChanges_eq_nil_iff {es : List Envelope} :
    betChanges es = [] ↔ ∀ e ∈ es, e.action.mutatesBets = false := by
  simp [betChanges, List.filter_eq_nil_iff]

/-- Bet changes can be picked out list by list. -/
theorem betChanges_append (es es' : List Envelope) :
    betChanges (es ++ es') = betChanges es ++ betChanges es' :=
  List.filter_append ..

/-- Bet changes are the same before and after the pass is numbered. -/
theorem betChanges_withSeq (es : List Envelope) (seq : Nat) :
    betChanges (es.map fun e => e.withSeq seq) =
      (betChanges es).map fun e => e.withSeq seq :=
  List.filter_map

/-- A table that leaves its layout alone when no envelope is about
bets. -/
def BettingTable.IgnoresOthers (τ : Type) [BettingTable τ] : Prop :=
  ∀ (table : τ) (es : List Envelope), (∀ e ∈ es, e.action.mutatesBets = false) →
    BettingTable.bets (BettingTable.applyAll table es).1 = BettingTable.bets table

/-- A paper table passes over envelopes that change no bet. -/
theorem PaperTable.ignoresOthers : BettingTable.IgnoresOthers PaperTable := by
  intro table es hes
  have hstep : ∀ state : PaperTable × ApplyReport, ∀ e ∈ es, step state e = state := by
    intro state e he
    unfold step
    dsimp only
    rw [hes e he]
    rfl
  have hfold : es.foldl step (table, .empty) = (table, .empty) :=
    List.foldlRecOn (motive := fun state => state = (table, ApplyReport.empty)) es step rfl
      fun state hstate e he => by rw [hstep state e he, hstate]
  show (applyAll table es).1.bets = table.bets
  rw [applyAll, hfold]

namespace Controller

/-! ### Where envelopes come from -/

/-- An envelope of a pass was asked for by one of its steps, from some
store on the way. -/
theorem exists_run_of_emission {verbs : Verbs} {snapshot : Snapshot} {store : Store}
    {steps : List (String × Step)} {e : Envelope}
    (he : e ∈ (emission verbs snapshot store steps).2) :
    ∃ ruleId step before after es, (ruleId, step) ∈ steps ∧ e ∈ es ∧
      StepContext.run { verbs, ruleId, snapshot } before step = (after, .ok es) := by
  induction steps generalizing store with
  | nil => cases he
  | cons first rest ih =>
    obtain ⟨ruleId, step⟩ := first
    rcases List.mem_append.1 he with hfirst | hlater
    · -- A step that faults asks for nothing, so this one has not.
      unfold asked at hfirst
      cases hrun : StepContext.run { verbs, ruleId, snapshot } store step with
      | mk after result =>
        rw [hrun] at hfirst
        cases result with
        | error fault => cases hfirst
        | ok es => exact ⟨ruleId, step, store, after, es, List.mem_cons_self, hfirst, hrun⟩
    · obtain ⟨ruleId, step, before, after, es, hmem, hes⟩ := ih hlater
      exact ⟨ruleId, step, before, after, es, List.mem_cons_of_mem _ hmem, hes⟩

variable {τ : Type} [BettingTable τ] {strategy : Strategy} {c : Controller τ} {event : Event}

/-- While a bet is being settled, no step of a pass asks for a change
of bets. -/
theorem mutatesBets_emitted (hevent : event.kind = .betResolved) {e : Envelope}
    (he : e ∈ (c.emitted event).2) : e.action.mutatesBets = false := by
  obtain ⟨ruleId, step, before, after, es, _, hes, hrun⟩ := exists_run_of_emission he
  exact StepContext.mutatesBets_of_run hevent hrun hes

/-- All that a template asks for changes bets. -/
theorem templateDiff_mutates {rules : TableRules} {template : Template} {store : Store}
    {snapshot : Snapshot} {e : Envelope} (he : e ∈ templateDiff rules template store snapshot) :
    e.source = .template ∧ e.action.mutatesBets = true := by
  obtain ⟨change, _, rfl⟩ := List.mem_map.1 he
  exact change.envelope_mutates _ _

/-! ### The pass of a settled bet -/

/-- In the pass of a settled bet the changes of bets are those of the
template, which has its say when a switch has changed the mode. -/
theorem Keeps.betChanges_handle (h : Keeps strategy c) (hevent : event.kind = .betResolved)
    {template : Template}
    (htemplate : strategy.modes.get? (c.emitted event).1.mode = some template) :
    betChanges (c.handle event).2.actions =
      if c.store.switchesMode (c.switches event) = true then
        (templateDiff strategy.table.rules template (c.emitted event).1 (c.snapshot event)).map
          fun e => e.withSeq (c.seq + 1)
      else [] := by
  -- Of the three parts of the pass only the template is left.
  have hrules : ∀ p : Envelope → Bool, betChanges ((c.emitted event).2.filter p) = [] := by
    intro p
    rw [betChanges_eq_nil_iff]
    exact fun e he => mutatesBets_emitted hevent (List.mem_filter.1 he).1
  have hdiff : betChanges
        (templateDiff strategy.table.rules template (c.emitted event).1 (c.snapshot event)) =
      templateDiff strategy.table.rules template (c.emitted event).1 (c.snapshot event) :=
    List.filter_eq_self.2 fun e he => (templateDiff_mutates he).2
  have hkind : event.kind ≠ .pointEstablished := by
    rw [hevent]
    decide
  rw [actions_handle, h.templateActions_eq htemplate, betChanges_withSeq, betChanges_append,
    betChanges_append, switches, others, hrules, hrules, List.append_nil, List.nil_append]
  simp only [hkind, false_or]
  split
  · rw [hdiff]
  · rfl

/-- The layout moves only by envelopes about bets. -/
theorem bets_handle (hlayout : BettingTable.IgnoresOthers τ)
    (h : ∀ e ∈ (c.handle event).2.actions, e.action.mutatesBets = false) :
    BettingTable.bets (c.handle event).1.table = BettingTable.bets c.table := by
  -- An empty pass does not go to the table at all.
  have htable : (c.handle event).1.table =
      if (c.handle event).2.actions.isEmpty then c.table
      else (BettingTable.applyAll c.table (c.handle event).2.actions).1 := rfl
  rw [htable]
  split
  · rfl
  · exact hlayout c.table _ h

/-- While a bet is settled, rules change no bets. The changes of the
pass are those of the template of the mode after it, and only when a
switch of the pass has changed the mode. Without one the layout stays
as it is. -/
theorem Reachable.settling_handle (hc : Reachable strategy c)
    (hlayout : BettingTable.IgnoresOthers τ) (hevent : event.kind = .betResolved) :
    let after := (c.handle event).1
    let actions := (c.handle event).2.actions
    (∀ e ∈ actions, e.source = .rule → e.action.mutatesBets = false) ∧
      (c.store.switchesMode (c.switches event) = false →
        (∀ e ∈ actions, e.action.mutatesBets = false) ∧
          BettingTable.bets after.table = BettingTable.bets c.table) ∧
      (c.store.switchesMode (c.switches event) = true →
        ∃ template, strategy.modes.get? after.mode = some template ∧
          betChanges actions =
            (templateDiff strategy.table.rules template after.store (c.snapshot event)).map
              fun e => e.withSeq (c.seq + 1)) := by
  intro after actions
  have hstore : after.store = (c.emitted event).1 := c.store_handle event
  -- The mode after the pass has a template, as the run goes on from there.
  obtain ⟨template, htemplate⟩ :=
    (KeyMap.contains_iff _ _).1 (Reachable.handle c event hc).keeps.mode
  have hchanges := hc.keeps.betChanges_handle hevent (by rwa [← hstore])
  refine ⟨fun e he hsource => ?_, fun hstill => ?_, fun hswitched => ?_⟩
  · -- A change would be one of the template's.
    rw [Bool.eq_false_iff]
    intro hmutates
    have hchange : e ∈ betChanges actions := mem_betChanges.2 ⟨he, hmutates⟩
    rw [hchanges] at hchange
    split at hchange
    · obtain ⟨asked, hasked, rfl⟩ := List.mem_map.1 hchange
      have htemplate : asked.source = .template := (templateDiff_mutates hasked).1
      cases htemplate.symm.trans hsource
    · cases hchange
  · have hnone : ∀ e ∈ actions, e.action.mutatesBets = false := by
      rw [← betChanges_eq_nil_iff, hchanges, hstill]
      rfl
    exact ⟨hnone, bets_handle hlayout hnone⟩
  · refine ⟨template, htemplate, ?_⟩
    rw [hchanges, if_pos hswitched, hstore]

/-- A strategy that presses the line, changes its mode and sets a
variable when a bet is settled. -/
def doubleUp : Strategy :=
  let step : StepObject :=
    { action := none, bet := none, amount := none, notes := none, mode := none, var := none,
      value := none }
  { table := { bubble := false, level := 10, oddsPolicy := none }
    vars := .empty
    modes := .ofList [("Hot", .ofList [("field", .amount (.number (.ofNat 15)))]),
      ("Main", .empty)]
    rules := [{
      name := none, id := none, event := some "bet_resolved", guard := none
      steps := [
        .object { step with action := some "press", bet := some "pass_line",
                            amount := some (.ofNat 10) },
        .object { step with action := some "switch_mode", mode := some "Hot" },
        .object { step with action := some "setvar", var := some "units",
                            value := some (.ofNat 15) }]
      thenStep := none, scope := .roll, cooldown := 0, once := false }] }

/-- The line is settled before the first roll. -/
def lineWon : Event :=
  Tracker.fresh.resolve "pass_line" "win" none

/-- The table that the strategy comes to. -/
def withLine : PaperTable :=
  { bets := .ofList [("pass_line", 10)], bankroll := 100 }

/-- The press is refused. The template is not: it takes the line down
and puts the field up. -/
theorem pass_doubleUp :
    ∃ c : Controller PaperTable, Controller.start doubleUp withLine = .ok c ∧
      (c.handle lineWon).2.actions.map Envelope.display =
        ["[rule:#1] switch_mode (Hot)", "[template:Hot] clear pass_line (template diff)",
          "[template:Hot] set field $20 (template diff)", "[rule:#1] setvar (units = 15)"] ∧
      (c.handle lineWon).2.actions.any (fun e => e.action.mutatesBets) = true ∧
      c.table.bets = .ofList [("pass_line", 10)] ∧
      (c.handle lineWon).1.table.bets = .ofList [("field", 20)] ∧
      c.store.switchesMode (c.switches lineWon) = true := by
  let seen := fun c : Controller PaperTable =>
    ((c.handle lineWon).2.actions.map Envelope.display,
      (c.handle lineWon).2.actions.any (fun e => e.action.mutatesBets),
      c.table.bets, (c.handle lineWon).1.table.bets, c.store.switchesMode (c.switches lineWon))
  have hseen : (Controller.start doubleUp withLine).toOption.map seen =
      some (["[rule:#1] switch_mode (Hot)", "[template:Hot] clear pass_line (template diff)",
          "[template:Hot] set field $20 (template diff)", "[rule:#1] setvar (units = 15)"],
        true, .ofList [("pass_line", 10)], .ofList [("field", 20)], true) := by
    decide +kernel
  cases hstart : Controller.start doubleUp withLine with
  | error fault =>
    rw [hstart] at hseen
    cases hseen
  | ok c =>
    rw [hstart] at hseen
    have hc := Option.some.inj hseen
    simp only [seen, Prod.mk.injEq] at hc
    exact ⟨c, rfl, hc⟩

/-- A pass that settles a bet may change bets, through the template of
the mode it switches to. -/
theorem betChanges_doubleUp :
    ∃ c : Controller PaperTable, Reachable doubleUp c ∧ lineWon.kind = .betResolved ∧
      (∃ e ∈ (c.handle lineWon).2.actions, e.action.mutatesBets = true) ∧
      BettingTable.bets (c.handle lineWon).1.table ≠ BettingTable.bets c.table := by
  obtain ⟨c, hstart, _, hany, hbefore, hafter, _⟩ := pass_doubleUp
  refine ⟨c, .start _ c hstart, rfl, List.any_eq_true.1 hany, fun hsame => ?_⟩
  have hbets : KeyMap.ofList [("field", (20 : Int))] = .ofList [("pass_line", 10)] :=
    hafter.symm.trans (hsame.trans hbefore)
  exact absurd hbets (by decide)

/-- The changes are those of the template of the mode `Hot`. -/
theorem settling_doubleUp :
    ∃ c : Controller PaperTable, Reachable doubleUp c ∧
      BettingTable.IgnoresOthers PaperTable ∧ lineWon.kind = .betResolved ∧
      c.store.switchesMode (c.switches lineWon) = true ∧
      (∀ e ∈ (c.handle lineWon).2.actions, e.source = .rule → e.action.mutatesBets = false) ∧
      ∃ template, doubleUp.modes.get? (c.handle lineWon).1.mode = some template ∧
        betChanges (c.handle lineWon).2.actions =
          (templateDiff doubleUp.table.rules template (c.handle lineWon).1.store
            (c.snapshot lineWon)).map fun e => e.withSeq (c.seq + 1) := by
  obtain ⟨c, hstart, _, _, _, _, hswitched⟩ := pass_doubleUp
  have hc : Reachable doubleUp c := .start _ c hstart
  have hevent : lineWon.kind = .betResolved := rfl
  obtain ⟨hrules, _, hchanges⟩ := hc.settling_handle PaperTable.ignoresOthers hevent
  exact ⟨c, hc, PaperTable.ignoresOthers, hevent, hswitched, hrules, hchanges hswitched⟩

end Controller

end CrapsStrategy
