import CrapsStrategy.Proofs.Session.Recording
import CrapsStrategy.Proofs.Session.Requests

/-!
# `CrapsStrategy.Proofs.Session.Books`: the books of a run agree

`Ledger.Recounts` says what each figure is in terms of the passes, and
nothing about how two figures relate: of any passes, an envelope might
be about no bet and count nowhere. In a run this cannot be. Every
envelope on bets names its bet (`Keeps.countP_isOnBet_handle`), no
template asks for a switch (`Keeps.filter_isSwitch_handle`), and
passes are numbered from one on.

`Recording.books_agree` relates the figures to each other and to the
controller, after any happenings.
-/

set_option autoImplicit false

namespace CrapsStrategy

variable {τ : Type} [BettingTable τ] {strategy : Strategy}

namespace Controller

/-! ### The envelopes of a pass -/

variable {c : Controller τ} {log : List (Turn τ)}

/-- Every envelope on bets names its bet. -/
theorem Keeps.isOnBet_handle (h : Keeps strategy c) {event : Event} {e : Envelope}
    (he : e ∈ (c.handle event).2.actions) : e.isOnBet = e.isAboutBets := by
  have hbet := (h.wellFormed_handle he).bet
  unfold Envelope.isOnBet Envelope.isAboutBets
  cases haction : e.action <;> simp [haction] at hbet <;>
    simp [ActionKind.mutatesBets, hbet]

/-- The switches of a pass are those that its rules ask for. -/
theorem Keeps.filter_isSwitch_handle (h : Keeps strategy c) (event : Event) :
    (c.handle event).2.actions.filter Envelope.isSwitch =
      (c.switches event).map fun e => e.withSeq (c.seq + 1) := by
  have hmode := (h.handle event).mode
  rw [Controller.mode, store_handle] at hmode
  obtain ⟨template, htemplate⟩ := (KeyMap.contains_iff _ _).1 hmode
  have hswitches : (c.switches event).filter Envelope.isSwitch = c.switches event := by
    rw [switches, List.filter_filter]
    simp
  have hothers : (c.others event).filter Envelope.isSwitch = [] := by
    rw [others, List.filter_filter]
    simp
  -- What a template asks for changes bets, and a switch does not.
  have hdiff : (templateDiff strategy.table.rules template (c.emitted event).1
      (c.snapshot event)).filter Envelope.isSwitch = [] := by
    refine List.filter_eq_nil_iff.2 fun e he => ?_
    have hmutates := (templateDiff_mutates he).2
    intro hswitch
    rw [of_decide_eq_true hswitch] at hmutates
    cases hmutates
  rw [actions_handle, h.templateActions_eq htemplate, List.filter_map]
  show List.map _ (List.filter Envelope.isSwitch _) = _
  rw [List.filter_append, List.filter_append, hswitches, hothers, List.append_nil]
  split
  · rw [hdiff, List.append_nil]
  · rw [List.filter_nil, List.append_nil]

/-- The mode that the books note for a pass is the mode after it. -/
theorem Keeps.modeAfter_handle (h : Keeps strategy c) (event : Event) :
    Ledger.modeAfter (c.handle event).2.snapshot (c.handle event).2.actions =
      (c.handle event).1.mode := by
  have hfilter : ((c.handle event).2.actions.filter fun e => e.action == .switchMode) = _ :=
    h.filter_isSwitch_handle event
  rw [Controller.mode, store_handle, mode_emitted]
  unfold Ledger.modeAfter
  rw [hfilter, List.getLast?_map]
  cases (c.switches event).getLast? <;> rfl

/-- Between two passes the mode does not change. -/
theorem Logged.mode_eq (h : Logged strategy log c) {t : Turn τ} (ht : log.getLast? = some t) :
    c.mode = t.after.mode := by
  induction h with
  | start table c hstart => cases ht
  | handle log c event hc ih =>
    rw [List.getLast?_concat, Option.some.injEq] at ht
    rw [← ht]
    rfl
  | tracker _ _ _ _ ih | table _ _ _ _ ih | withVerbs _ _ _ _ ih | withTrace _ _ _ _ ih
  | dropTrace _ _ _ ih => exact ih ht

end Controller

/-! ### The books of a run -/

/-- Figures that have to agree with each other and with the
controller. -/
structure Ledger.Agrees (ledger : Ledger) (c : Controller τ) (log : List Pass) : Prop where
  passes : ledger.passes = log.length
  seq : ledger.passes = c.seq
  events : ledger.passes = ledger.events.total id
  sources : ledger.templateActions + ledger.ruleActions = (envelopesOf log).length
  kinds : (envelopesOf log).length =
    ledger.setvars + ledger.modeSwitches.length + ledger.bets.total BetTally.envelopes
  points : ledger.points.total id = ledger.eventCount .pointEstablished
  fired : ∀ ruleId, ledger.firedCount ruleId = log.countP (Pass.isAskedBy ruleId)
  mode : ledger.mode = c.mode

namespace Recording

open Controller (coldHand withLine)

/-- In the books of a run all envelopes on bets are under a bet. -/
theorem Sound.countP_isOnBet {r : Recording τ} (h : Sound strategy r) :
    (envelopesOf r.passes).countP Envelope.isOnBet =
      (envelopesOf r.passes).countP Envelope.isAboutBets := by
  refine List.countP_congr fun e he => ?_
  obtain ⟨pass, hpass, he⟩ := List.mem_flatMap.1 he
  obtain ⟨t, ht, rfl⟩ := List.mem_map.1 hpass
  rw [(h.logged.reachable_before ht).keeps.isOnBet_handle he]

/-- After the first pass the books hold the active mode: that of the
last pass, which nothing between two passes changes. -/
theorem Sound.mode_ledger {r : Recording τ} (h : Sound strategy r) (hpasses : r.passes ≠ []) :
    r.ledger.mode = r.controller.mode := by
  have hturns : r.turns ≠ [] := fun hnil => hpasses (by rw [passes, hnil]; rfl)
  have hlast := List.getLast?_eq_some_getLast hturns
  have hkeeps := (h.logged.reachable_before (List.getLast_mem hturns)).keeps
  rw [h.ledger, (Ledger.recounts_ofPasses r.passes).mode, passes, List.getLast?_map, hlast,
    h.logged.mode_eq hlast]
  exact hkeeps.modeAfter_handle _

/-- The books of a run agree with the run and with themselves. Every
pass is booked under one kind of event, and every envelope under one
source and under one kind; a point is booked with every event that
establishes one; a rule is booked once for each pass that it asks
something in; and the mode in the books is the active one. -/
theorem books_agree {table : τ} {c : Controller τ} (hready : c.Ready strategy table)
    (happenings : List (Happening τ))
    (hpoints : ∀ event, .event event ∈ happenings → event.NamesPoint)
    (hpasses : (after c happenings).passes ≠ []) :
    let r := after c happenings
    r.ledger.Agrees r.controller r.passes := by
  intro r
  have hsound : Sound strategy r := sound_after hready happenings
  have hrecounts : r.ledger.Recounts r.passes := by
    rw [hsound.ledger]
    exact Ledger.recounts_ofPasses r.passes
  constructor
  case passes => exact hrecounts.passes
  case seq => rw [hrecounts.passes, hsound.logged.seqs.1, passes, List.length_map]
  case events => rw [hrecounts.passes, hrecounts.events]
  case sources =>
    rw [hrecounts.templateActions, hrecounts.ruleActions, Envelope.length_eq_sources]
  case kinds =>
    rw [hrecounts.setvars, hrecounts.modeSwitches, hrecounts.bets, hsound.countP_isOnBet,
      List.length_map, ← List.countP_eq_length_filter, Envelope.length_eq_kinds]
  case points =>
    rw [hrecounts.points, hrecounts.eventCount]
    refine List.countP_congr fun pass hpass => ?_
    obtain ⟨t, ht, rfl⟩ := List.mem_map.1 hpass
    -- The tracker names a point with its marker, and so do the events from
    -- outside by assumption.
    have hpoint : t.pass.event.kind = .pointEstablished → t.pass.event.point.isSome = true :=
      namesPoint_after c happenings hpoints t ht
    simpa using hpoint
  case fired => exact hrecounts.firedCount
  case mode => exact hsound.mode_ledger hpasses

/-- The marker of a second hand. -/
def nextHand : Event :=
  { Tracker.fresh.resolve "" "" none with
    kind := .comeout, handId := 2, resolution := none }

/-- A hand that loses its point, and the marker of the next one, handed
over. -/
def coldEvening : List (Happening PaperTable) :=
  [.command (.roll 6 none), .command (.roll 7 none), .event nextHand]

/-- A point, a seven-out and a hand that is opened by someone else. The
pass of the seven-out switches the mode, puts the field up, clears the
line and sets a variable. -/
theorem books_agree_coldHand :
    ∃ c : Controller PaperTable, c.Ready coldHand withLine ∧
      (∀ event, .event event ∈ coldEvening → event.NamesPoint) ∧
      (after c coldEvening).ledger.passes = 4 ∧
      (after c coldEvening).ledger.ruleActions = 3 ∧
      (after c coldEvening).ledger.Agrees (after c coldEvening).controller
        (after c coldEvening).passes := by
  have hseen : (Controller.start coldHand withLine).toOption.map (fun c =>
      ((after c coldEvening).ledger.passes, (after c coldEvening).ledger.ruleActions,
        (after c coldEvening).passes.isEmpty)) = some (4, 3, false) := by
    decide +kernel
  obtain ⟨c, hstart, hc⟩ := exists_ok_of_toOption hseen
  simp only [Prod.mk.injEq] at hc
  obtain ⟨hpasses, hactions, hsome⟩ := hc
  have hready : c.Ready coldHand withLine := .of_start hstart
  have hpoints : ∀ event, .event event ∈ coldEvening → event.NamesPoint := by
    simp [coldEvening, Event.NamesPoint, nextHand]
  refine ⟨c, hready, hpoints, hpasses, hactions, ?_⟩
  refine books_agree hready coldEvening hpoints fun hnil => ?_
  rw [hnil] at hsome
  cases hsome

end Recording

end CrapsStrategy
