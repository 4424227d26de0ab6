import CrapsStrategy.Proofs.KeyMap
import CrapsStrategy.Proofs.Session.Pass

/-!
# `CrapsStrategy.Proofs.Session.Reachable`: what holds of every run

`Controller.Reachable` is every controller that a run of a strategy
comes to, whatever is done to it between the passes. `Keeps` is the
invariant: a controller keeps the templates, the table rules, the
rules and the modes of its strategy, and its active mode is one of
them. `Reachable.keeps` is the induction.

With it a pass can be told in full. `PassLaw` says what the envelopes
of a pass are and which mode and which variables it leaves, and
`Reachable.passLaw_handle` that every pass of a run obeys it. The law
has a template for the mode after the pass, so the arm of
`templateActions` for a mode without one is never taken.
-/

set_option autoImplicit false

namespace CrapsStrategy

namespace Store

/-- A store starts in one of its modes, if it has any. -/
theorem contains_startingMode (initial : Variables) {modes : KeySet}
    (hmodes : modes.entries ≠ []) : modes.contains (startingMode initial modes) = true := by
  unfold startingMode
  split
  · -- The requested mode is only taken when it is there.
    rename_i mode hrequested
    unfold requestedMode? at hrequested
    split at hrequested
    · split at hrequested
      · rename_i hcontains
        cases hrequested
        exact hcontains
      · cases hrequested
    · cases hrequested
  · split
    · rename_i hdefault
      exact hdefault
    · obtain ⟨first, rest, hentries⟩ := List.exists_cons_of_ne_nil hmodes
      have hfirst : modes.keys.headD "" = first.1 := by rw [KeyMap.keys, hentries]; rfl
      rw [hfirst, KeyMap.contains_iff]
      exact ⟨first.2, (modes.mem_entries_iff _ _).1 (hentries ▸ List.mem_cons_self)⟩

end Store

namespace Controller

variable {τ : Type} {strategy : Strategy} {c : Controller τ}

/-! ### Runs -/

/-- The controllers that a run of a strategy comes to. Between two
passes the trace may be switched or dropped, the verbs replaced, the
tracker moved on or started over, and the table may change. -/
inductive Reachable [BettingTable τ] (strategy : Strategy) : Controller τ → Prop
  | start (table : τ) (c : Controller τ) (hstart : Controller.start strategy table = .ok c) :
      Reachable strategy c
  | handle (c : Controller τ) (event : Event) (hc : Reachable strategy c) :
      Reachable strategy (c.handle event).1
  | tracker (c : Controller τ) (tracker : Tracker) (hc : Reachable strategy c) :
      Reachable strategy { c with tracker }
  | table (c : Controller τ) (table : τ) (hc : Reachable strategy c) :
      Reachable strategy { c with table }
  | withVerbs (c : Controller τ) (verbs : Verbs) (hc : Reachable strategy c) :
      Reachable strategy (c.withVerbs verbs)
  | withTrace (c : Controller τ) (traced : Bool) (hc : Reachable strategy c) :
      Reachable strategy (c.withTrace traced)
  | dropTrace (c : Controller τ) (hc : Reachable strategy c) :
      Reachable strategy { c with engine := c.engine.dropTrace }

namespace Reachable

variable [BettingTable τ]

/-- Events that are handled one after the other lead to a reachable
controller. -/
theorem handleAll (hc : Reachable strategy c) (events : List Event) :
    Reachable strategy (c.handleAll events).1 := by
  induction events generalizing c with
  | nil => exact hc
  | cons event events ih => exact ih (.handle c event hc)

/-- A roll is a run of passes, after the tracker has moved on. -/
theorem roll {c' : Controller τ} {total : Nat} {dice : Option (Nat × Nat)} {passes : List Pass}
    (hc : Reachable strategy c) (hroll : c.roll total dice = .ok (c', passes)) :
    Reachable strategy c' := by
  unfold Controller.roll at hroll
  split at hroll
  · cases hroll
  · rename_i tracker events _
    have hall := (Reachable.tracker c tracker hc).handleAll events
    rw [Except.ok.injEq] at hroll
    rw [hroll] at hall
    exact hall

/-- A bet that was settled elsewhere leads to a reachable controller. -/
theorem resolve (hc : Reachable strategy c) (bet result : String) (payout : Option Binary64) :
    Reachable strategy (c.resolve bet result payout).1 :=
  .handle c _ hc

/-- Starting the table over leads to a reachable controller. -/
theorem resetTable (hc : Reachable strategy c) : Reachable strategy c.resetTable :=
  .tracker c .fresh hc

end Reachable

/-! ### What a controller keeps -/

/-- What a controller keeps of its strategy throughout a run. -/
structure Keeps (strategy : Strategy) (c : Controller τ) : Prop where
  templates : c.templates = strategy.modes
  rules : c.rules = strategy.table.rules
  compiled : Rule.compileAll strategy.rules = .ok c.engine.rules
  modes : c.store.modes = strategy.modes.mapValues fun _ => ()
  mode : strategy.modes.contains c.mode = true

/-- The modes of the store are those of the strategy. -/
theorem Keeps.hasMode_eq (h : Keeps strategy c) (mode : String) :
    c.store.hasMode mode = strategy.modes.contains mode := by
  simp [Store.hasMode, KeyMap.contains, h.modes]

/-- What a template wants changed on the layout of a snapshot, when it
is rendered with the mode and the variables of a store. -/
def templateDiff (rules : TableRules) (template : Template) (store : Store)
    (snapshot : Snapshot) : List Envelope :=
  let planning := { snapshot with mode := store.mode, vars := store.vars }
  let rendered := template.render planning rules
  (Layout.changes snapshot.bets rendered.bets).map
    (BetChange.envelope store.mode rendered.working)

/-- The template of a mode of the strategy is found. -/
theorem Keeps.templateActions_eq (h : Keeps strategy c) {store : Store} {template : Template}
    (htemplate : strategy.modes.get? store.mode = some template) (snapshot : Snapshot) :
    c.templateActions store snapshot =
      templateDiff strategy.table.rules template store snapshot := by
  rw [templateActions, h.templates, htemplate, h.rules]
  rfl

/-- A controller that has started has modes and compiled rules, and
nothing has happened to it. -/
theorem start_eq_ok {table : τ} (hstart : Controller.start strategy table = .ok c) :
    strategy.modes.entries ≠ [] ∧ ∃ rules, Rule.compileAll strategy.rules = .ok rules ∧
      c = {
        templates := strategy.modes, rules := strategy.table.rules, tracker := .fresh
        engine := .ofRules rules, verbs := .standard
        store := .start strategy.vars (strategy.modes.mapValues fun _ => ())
        table, seq := 0 } := by
  unfold Controller.start at hstart
  split at hstart
  · cases hstart
  · rename_i hnonempty
    refine ⟨by simpa using hnonempty, ?_⟩
    split at hstart
    · cases hstart
    · rename_i engine hengine
      obtain ⟨rules, hcompiled, hof⟩ := bind_eq_ok.1 hengine
      cases hof
      cases hstart
      exact ⟨rules, hcompiled, rfl⟩

/-- A controller starts with what its strategy says. -/
theorem keeps_start {table : τ} (hstart : Controller.start strategy table = .ok c) :
    Keeps strategy c := by
  obtain ⟨hnonempty, rules, hcompiled, rfl⟩ := start_eq_ok hstart
  constructor
  case templates => rfl
  case rules => rfl
  case compiled => rw [hcompiled, RuleEngine.rules_ofRules]
  case modes => rfl
  case mode =>
    have hmodes : (strategy.modes.mapValues fun _ => ()).entries ≠ [] := by
      simpa [KeyMap.mapValues] using hnonempty
    have hcontains := Store.contains_startingMode strategy.vars hmodes
    simpa [KeyMap.contains, Controller.mode, Store.start] using hcontains

variable [BettingTable τ]

/-- A pass keeps what a controller keeps: its last switch, if there is
one, is to a mode that the store has. -/
theorem Keeps.handle (h : Keeps strategy c) (event : Event) :
    Keeps strategy (c.handle event).1 := by
  have hstore := c.store_handle event
  have hrules := c.rules_handle event
  constructor
  case templates => exact h.templates
  case rules => exact h.rules
  case compiled => rw [hrules]; exact h.compiled
  case modes => rw [hstore, modes_emitted]; exact h.modes
  case mode =>
    rw [Controller.mode, hstore, mode_emitted]
    cases hlast : (c.switches event).getLast? with
    | none => exact h.mode
    | some e =>
      have hknown := hasMode_of_mem_switches (List.mem_of_getLast? hlast)
      rwa [h.hasMode_eq] at hknown

/-- A run leaves templates, table rules, compiled rules and modes as
they were, and its mode is one of these. -/
theorem Reachable.keeps (hc : Reachable strategy c) : Keeps strategy c := by
  induction hc with
  | start table c hstart => exact keeps_start hstart
  | handle c event _ ih => exact ih.handle event
  | tracker c tracker _ ih => exact ⟨ih.templates, ih.rules, ih.compiled, ih.modes, ih.mode⟩
  | table c table _ ih => exact ⟨ih.templates, ih.rules, ih.compiled, ih.modes, ih.mode⟩
  | withVerbs c verbs _ ih => exact ⟨ih.templates, ih.rules, ih.compiled, ih.modes, ih.mode⟩
  | withTrace c traced _ ih => exact ⟨ih.templates, ih.rules, ih.compiled, ih.modes, ih.mode⟩
  | dropTrace c _ ih => exact ⟨ih.templates, ih.rules, ih.compiled, ih.modes, ih.mode⟩

/-! ### The law of a pass -/

/-- What a pass may do, given the steps of the rules that fire. The
switches and the other envelopes are the two halves of what the steps
ask for. The template is that of the mode after all steps. -/
structure PassLaw (strategy : Strategy) (c : Controller τ) (event : Event)
    (after : Controller τ) (actions : List Envelope) : Prop where
  /-- The rules are those of the strategy, in its order. -/
  compiled : Rule.compileAll strategy.rules = .ok c.engine.rules
  /-- Those that fire run their steps in this order. -/
  ordered : (c.engine.pass (c.snapshot event)).2.Pairwise (· < ·)
  actions_eq : ∃ template, strategy.modes.get? after.mode = some template ∧
    actions =
      (c.switches event ++
        (if event.kind = .pointEstablished ∨ c.store.switchesMode (c.switches event) = true then
          templateDiff strategy.table.rules template after.store (c.snapshot event)
        else []) ++
        c.others event).map fun e => e.withSeq (c.seq + 1)
  /-- Variables and mode are as the last step has left them. -/
  store_eq : after.store = (c.emitted event).1
  mode_eq : after.mode = ((c.switches event).getLast?.map Envelope.notes).getD c.mode
  contains_mode : strategy.modes.contains c.mode = true

/-- Every pass of a run obeys the law. -/
theorem Reachable.passLaw_handle (hc : Reachable strategy c) (event : Event) :
    PassLaw strategy c event (c.handle event).1 (c.handle event).2.actions := by
  have hkeeps := hc.keeps
  -- The mode after the pass has a template, as the controller goes on being reachable.
  have hafter := (Reachable.handle c event hc).keeps.mode
  obtain ⟨template, htemplate⟩ := (KeyMap.contains_iff _ _).1 hafter
  have hemitted : strategy.modes.get? (c.emitted event).1.mode = some template := by
    rwa [Controller.mode, store_handle] at htemplate
  refine ⟨hkeeps.compiled, c.engine.pass_pairwise _, ⟨template, htemplate, ?_⟩,
    c.store_handle event, ?_, hkeeps.mode⟩
  · rw [actions_handle, store_handle, hkeeps.templateActions_eq hemitted]
  · rw [Controller.mode, store_handle, mode_emitted]

/-- A strategy that changes its mode and sets a variable at a seven-out. -/
def coldHand : Strategy :=
  let step : StepObject :=
    { action := none, bet := none, amount := none, notes := none, mode := none, var := none,
      value := none }
  let units : Value := .ofNat 15
  { table := { bubble := false, level := 10, oddsPolicy := none }
    vars := .empty
    modes := .ofList [("Hot", .ofList [("field", .amount (.number (.ofNat 15)))]),
      ("Main", .empty)]
    rules := [{
      name := none, id := none, event := some "seven_out", guard := none
      steps := [
        .object { step with action := some "clear", bet := some "pass_line" },
        .object { step with action := some "switch_mode", mode := some "Hot" },
        .object { step with action := some "setvar", var := some "units", value := some units }]
      thenStep := none, scope := .roll, cooldown := 0, once := false }] }

/-- A seven-out in the third roll of a hand. -/
def sevenOut : Event :=
  { kind := .sevenOut, handId := 1, rollInHand := 3, rollIndex := 3, rollsSincePoint := 1,
    onComeout := false, point := some 6, total := some 7, dice := none, counters := .zero,
    resolution := none }

/-- The first pass of that strategy. The switch comes before the bets
of the new mode, and the clear before it and the variable after it
come last. -/
theorem passLaw_coldHand :
    ∃ c : Controller PaperTable, Reachable coldHand c ∧
      PassLaw coldHand c sevenOut (c.handle sevenOut).1 (c.handle sevenOut).2.actions ∧
      (c.handle sevenOut).2.actions.map Envelope.display =
        ["[rule:#1] switch_mode (Hot)", "[template:Hot] set field $20 (template diff)",
          "[rule:#1] clear pass_line", "[rule:#1] setvar (units = 15)"] := by
  have hshown :
      (match Controller.start coldHand { bets := .empty, bankroll := 100 : PaperTable } with
        | .ok c => (c.handle sevenOut).2.actions.map Envelope.display
        | .error _ => []) =
        ["[rule:#1] switch_mode (Hot)", "[template:Hot] set field $20 (template diff)",
          "[rule:#1] clear pass_line", "[rule:#1] setvar (units = 15)"] := by
    decide +kernel
  cases hstart : Controller.start coldHand { bets := .empty, bankroll := 100 : PaperTable } with
  | error fault =>
    rw [hstart] at hshown
    cases hshown
  | ok c =>
    have hc : Reachable coldHand c := .start _ c hstart
    rw [hstart] at hshown
    exact ⟨c, hc, hc.passLaw_handle sevenOut, hshown⟩

end Controller

end CrapsStrategy
