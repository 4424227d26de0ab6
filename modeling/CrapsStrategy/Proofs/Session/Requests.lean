import CrapsStrategy.Proofs.Session.Journal
import CrapsStrategy.Proofs.Session.Settling

/-!
# `CrapsStrategy.Proofs.Session.Requests`: the envelopes of a run

`Envelope.WellFormed` ties the fields of an envelope to its action.
Every verb keeps to it in every form of a step, as a wager with an
amount that is not finite and positive is a fault and asks for
nothing (`wellFormed_of_run`). So does a template, whose amounts are
legal and therefore positive 64-bit integers
(`wellFormed_of_templateDiff`).

`Turn.Issues` says the rest, which takes the whole pass: who asked,
and in which pass. Ids of rules and of templates begin with different
letters, so the id alone tells them apart.
`Logged.wellFormed_requests` has all of it for every run.
-/

set_option autoImplicit false

namespace CrapsStrategy

namespace Envelope

/-- The fields of an envelope are those that its action has. An amount
is finite and more than zero. -/
structure WellFormed (e : Envelope) : Prop where
  amount : e.amount.isSome = true ↔
    e.action = .set ∨ e.action = .press ∨ e.action = .reduce
  positive : ∀ x, e.amount = some x → x.isFinite = true ∧ Binary64.less 0 x = true
  bet : e.bet.isSome = true ↔
    e.action = .set ∨ e.action = .press ∨ e.action = .reduce ∨ e.action = .clear
  var : e.var.isSome = true ↔ e.action = .setvar
  value : e.value.isSome = true ↔ e.action = .setvar

variable {e : Envelope}

/-! ### The forms of an envelope -/

/-- A wager has a bet and an amount, here one that is finite and
positive. -/
theorem wellFormed_wager (source : Source) (id : String) (w : Wager) (bet : String)
    {x : Binary64} (hfinite : x.isFinite = true) (hpositive : Binary64.less 0 x = true) :
    (wager source id w bet x).WellFormed := by
  constructor
  case positive =>
    intro y hy
    cases hy
    exact ⟨hfinite, hpositive⟩
  all_goals cases w <;> simp [wager, bare, Wager.kind]

/-- A bet that is cleared has no amount. -/
theorem wellFormed_clear (source : Source) (id bet : String) :
    (clear source id bet).WellFormed := by
  constructor <;> simp [clear, bare]

/-- A switch carries its mode in the notes and has no field of its own. -/
theorem wellFormed_switchMode (source : Source) (id mode : String) :
    (switchMode source id mode).WellFormed := by
  constructor <;> simp [switchMode, bare]

/-- An assignment has the variable and its value. -/
theorem wellFormed_setvar (source : Source) (id var : String) (value : Value) :
    (setvar source id var value).WellFormed := by
  constructor <;> simp [setvar, bare]

/-- Well-formed envelopes may have any notes. -/
theorem WellFormed.withNotes (h : e.WellFormed) (notes : String) :
    (e.withNotes notes).WellFormed :=
  ⟨h.amount, h.positive, h.bet, h.var, h.value⟩

/-- Whether a bet is working is free in a well-formed envelope. -/
theorem WellFormed.withWorking (h : e.WellFormed) (working : Bool) :
    (e.withWorking working).WellFormed :=
  ⟨h.amount, h.positive, h.bet, h.var, h.value⟩

/-- The number of the pass is free in a well-formed envelope. -/
theorem WellFormed.withSeq (h : e.WellFormed) (seq : Nat) : (e.withSeq seq).WellFormed :=
  ⟨h.amount, h.positive, h.bet, h.var, h.value⟩

end Envelope

/-! ### What steps ask for -/

namespace StepContext

variable {c : StepContext} {store after : Store} {call : VerbCall} {e : Envelope}

/-- The notes of a call change nothing. -/
theorem wellFormed_annotated (h : e.WellFormed) : (annotated call e).WellFormed := by
  unfold annotated
  split
  · exact h.withNotes _
  · exact h

/-- Notes do not change who asks. -/
theorem origin_annotated (call : VerbCall) (e : Envelope) :
    (annotated call e).source = e.source ∧ (annotated call e).id = e.id := by
  unfold annotated
  split <;> exact ⟨rfl, rfl⟩

/-- The envelope of a verb that succeeds, whatever the verb and its
arguments. -/
theorem Acts.wellFormed {action : ActionKind} (h : Acts c store call action after e) :
    e.WellFormed ∧ e.source = .rule ∧ e.id = c.ruleId := by
  cases h with
  | wager w bet x hfinite hpositive =>
    exact ⟨wellFormed_annotated (Envelope.wellFormed_wager _ _ w bet hfinite hpositive),
      origin_annotated call _⟩
  | clear bet =>
    exact ⟨wellFormed_annotated (Envelope.wellFormed_clear _ _ bet), origin_annotated call _⟩
  | switchMode mode hmode => exact ⟨Envelope.wellFormed_switchMode _ _ mode, rfl, rfl⟩
  | setvar var v => exact ⟨Envelope.wellFormed_setvar _ _ var v, rfl, rfl⟩

/-- The envelopes of a step, in the name of its rule. -/
theorem wellFormed_of_run {step : Step} {es : List Envelope}
    (h : c.run store step = (after, .ok es)) (he : e ∈ es) :
    e.WellFormed ∧ e.source = .rule ∧ e.id = c.ruleId := by
  cases ran_run h with
  | statements source script hran =>
    obtain ⟨assigned, _, rfl⟩ := List.mem_map.1 he
    exact ⟨Envelope.wellFormed_setvar _ _ assigned.1 assigned.2, rfl, rfl⟩
  | call call action _ asked hverb htimely hacts =>
    rw [List.mem_singleton.1 he]
    exact hacts.wellFormed

end StepContext

/-! ### What templates ask for -/

/-- The level of a strategy's table is a 64-bit integer. -/
theorem TableSection.level_rules_le (table : TableSection) :
    table.rules.level ≤ Binary64.maxInt := by
  unfold rules
  dsimp only
  split
  · exact Binary64.saturate_le_maxInt _
  · decide

/-- The envelope of a change, when the amount is a positive 64-bit
integer. -/
theorem BetChange.wellFormed_envelope {change : BetChange}
    (h : ∀ bet amount, change = .set bet amount → 0 < amount ∧ amount ≤ Binary64.maxInt)
    (mode : String) (working : KeySet) : (change.envelope mode working).WellFormed := by
  cases change with
  | clear bet => exact (Envelope.wellFormed_clear _ _ bet).withNotes _
  | set bet amount =>
    obtain ⟨hpositive, hbound⟩ := h bet amount rfl
    obtain ⟨hfinite, hless⟩ := Binary64.ofInt_positive hpositive hbound
    have hset := (Envelope.wellFormed_wager .template ("template:" ++ mode) .set bet hfinite
      hless).withNotes notes
    unfold envelope
    dsimp only
    split
    · exact hset.withWorking true
    · exact hset

/-- A change is asked for in the name of a mode. -/
theorem BetChange.origin_envelope (change : BetChange) (mode : String) (working : KeySet) :
    let e := change.envelope mode working
    e.source = .template ∧ e.id = "template:" ++ mode ∧ (e.action = .set ∨ e.action = .clear) := by
  cases change with
  | clear bet => exact ⟨rfl, rfl, .inr rfl⟩
  | set bet amount =>
    unfold envelope
    dsimp only
    split <;> exact ⟨rfl, rfl, .inl rfl⟩

namespace Controller

/-- The envelopes of a template are well formed, carry the id of its
mode, and set or clear a bet. -/
theorem wellFormed_of_templateDiff {table : TableRules} (hlevel : table.level ≤ Binary64.maxInt)
    {template : Template} {store : Store} {snapshot : Snapshot} {e : Envelope}
    (he : e ∈ templateDiff table template store snapshot) :
    e.WellFormed ∧ e.source = .template ∧ e.id = "template:" ++ store.mode ∧
      (e.action = .set ∨ e.action = .clear) := by
  obtain ⟨change, hchange, rfl⟩ := List.mem_map.1 he
  refine ⟨change.wellFormed_envelope ?_ _ _, change.origin_envelope _ _⟩
  rintro bet amount rfl
  -- The amount is one that rendering has made legal.
  have hwanted := Layout.get?_of_set_mem_changes hchange
  exact ⟨Layout.pos_of_set_mem_changes hchange,
    template.every_render (.le_maxInt hlevel) _ bet amount hwanted⟩

/-! ### Whole passes -/

variable {τ : Type} [BettingTable τ] {strategy : Strategy} {c : Controller τ} {event : Event}
  {e : Envelope}

/-- What a rule asks for in a pass comes from a step of a rule that the
event triggers. -/
theorem exists_rule_of_emitted (he : e ∈ (c.emitted event).2) :
    ∃ rule ∈ c.engine.rules, rule.trigger = some event.kind ∧ rule.id = e.id ∧
      e.source = .rule ∧ e.WellFormed := by
  obtain ⟨ruleId, step, before, after, es, hstep, hes, hrun⟩ := exists_run_of_emission he
  obtain ⟨hwell, hsource, hid⟩ := StepContext.wellFormed_of_run hrun hes
  -- The step is one of a rule at a position that fires.
  obtain ⟨rule, hrule, hsteps⟩ := List.mem_flatMap.1 hstep
  obtain ⟨_, _, heq⟩ := List.mem_map.1 hsteps
  cases heq
  obtain ⟨position, hposition, hat⟩ := List.mem_filterMap.1 hrule
  obtain ⟨armed, harmed, hfired⟩ := (c.engine.mem_pass_iff _ position).1 hposition
  have hsame : rule = armed.rule := by
    rw [RuleEngine.rules, List.getElem?_map, harmed] at hat
    exact (Option.some.inj hat).symm
  -- A rule that fires has been triggered.
  have htriggered : armed.rule.trigger = some event.kind := by
    rcases Rule.judge_cases armed.rule armed.state.tick (c.snapshot event) with
      ⟨hcan, _⟩ | ⟨_, hnot, _⟩
    · exact hcan.2.1
    · exact absurd hfired hnot
  exact ⟨rule, List.mem_of_getElem? hat, hsame ▸ htriggered, hid.symm, hsource, hwell⟩

/-- An envelope of a pass before it is stamped: a rule asked for it, or
the template of the mode after the pass. -/
theorem Keeps.mem_actions_handle (h : Keeps strategy c)
    (he : e ∈ (c.handle event).2.actions) :
    ∃ asked : Envelope, e = asked.withSeq (c.seq + 1) ∧ (asked ∈ (c.emitted event).2 ∨
      ∃ template, asked ∈ templateDiff strategy.table.rules template (c.emitted event).1
        (c.snapshot event)) := by
  have hmode := (h.handle event).mode
  rw [Controller.mode, store_handle] at hmode
  obtain ⟨template, htemplate⟩ := (KeyMap.contains_iff _ _).1 hmode
  rw [actions_handle, h.templateActions_eq htemplate] at he
  obtain ⟨asked, hasked, rfl⟩ := List.mem_map.1 he
  refine ⟨asked, rfl, ?_⟩
  -- Switches come first, then what the template asks for, then the rest.
  rcases List.mem_append.1 hasked with hfirst | hother
  · rcases List.mem_append.1 hfirst with hswitch | htemplate
    · exact .inl (List.mem_filter.1 hswitch).1
    · split at htemplate
      · exact .inr ⟨template, htemplate⟩
      · cases htemplate
  · exact .inl (List.mem_filter.1 hother).1

/-- Every envelope of a pass is well-formed, be it asked for by a rule
or by a template. -/
theorem Keeps.wellFormed_handle (h : Keeps strategy c) (he : e ∈ (c.handle event).2.actions) :
    e.WellFormed := by
  obtain ⟨asked, rfl, hrule | ⟨template, htemplate⟩⟩ := h.mem_actions_handle he
  · obtain ⟨_, _, _, _, _, hwell⟩ := exists_rule_of_emitted hrule
    exact hwell.withSeq _
  · have hlevel := strategy.table.level_rules_le
    exact (wellFormed_of_templateDiff hlevel htemplate).1.withSeq _

end Controller

/-! ### Who asked -/

/-- The id of a compiled rule tells that it is one. -/
theorem Rule.id_of_mem_compileAll {sections : List RuleSection} {rules : List Rule}
    (h : Rule.compileAll sections = .ok rules) {rule : Rule} (hrule : rule ∈ rules) :
    ∃ label, rule.id = "rule:" ++ label := by
  obtain ⟨⟨written, index⟩, _, hat⟩ := exists_of_mem_mapM h hrule
  have hcompiled : compile index written = .ok rule := hat
  unfold compile at hcompiled
  split at hcompiled
  · rename_i compiled hparts
    cases hcompiled
    obtain ⟨trigger, _, hparts⟩ := bind_eq_ok.1 hparts
    obtain ⟨guard, _, hparts⟩ := bind_eq_ok.1 hparts
    obtain ⟨steps, _, hparts⟩ := bind_eq_ok.1 hparts
    cases hparts
    exact ⟨_, rfl⟩
  · cases hcompiled

/-- No rule goes by the id of a template. -/
theorem rule_ne_template (label mode : String) : "rule:" ++ label ≠ "template:" ++ mode := by
  intro h
  have hhead := congrArg (fun text : String => text.toList.head?) h
  simp [String.toList_append] at hhead

/-- The origin of an envelope of a pass, given the rules of the
strategy. -/
structure Turn.Issues {τ : Type} [BettingTable τ] (strategy : Strategy) (rules : List Rule)
    (t : Turn τ) (e : Envelope) : Prop where
  /-- A switch is to a mode of the strategy. -/
  mode : e.action = .switchMode → strategy.modes.contains e.notes = true
  template_iff : e.source = .template ↔ e.id = "template:" ++ t.after.mode
  templated : e.source = .template → e.action = .set ∨ e.action = .clear
  /-- All others are asked for by a rule that the event triggers. -/
  ruled : e.id ≠ "template:" ++ t.after.mode →
    ∃ rule ∈ rules, rule.id = e.id ∧ rule.trigger = some t.event.kind
  seq : e.seq = some t.pass.seq

namespace Controller

variable {τ : Type} [BettingTable τ] {strategy : Strategy}

/-- Every envelope of a pass is asked for by a rule that the event
triggers, or by the template of the mode that is then active. -/
theorem Keeps.issues_handle {c : Controller τ} {event : Event} (h : Keeps strategy c)
    {e : Envelope} (he : e ∈ (c.handle event).2.actions) :
    Turn.Issues strategy c.engine.rules { before := c, event } e := by
  obtain ⟨asked, rfl, hrule | ⟨template, htemplate⟩⟩ := h.mem_actions_handle he
  · obtain ⟨rule, hmem, htrigger, hid, hsource, _⟩ := exists_rule_of_emitted hrule
    obtain ⟨label, hlabel⟩ := Rule.id_of_mem_compileAll h.compiled hmem
    have hother : ∀ mode, asked.id ≠ "template:" ++ mode := by
      intro mode
      rw [← hid, hlabel]
      exact rule_ne_template label mode
    constructor
    case mode =>
      intro hswitch
      have hswitches : asked ∈ c.switches event :=
        List.mem_filter.2 ⟨hrule, decide_eq_true hswitch⟩
      have hknown := hasMode_of_mem_switches hswitches
      rwa [h.hasMode_eq] at hknown
    case template_iff =>
      constructor
      · intro htemplate
        cases hsource.symm.trans htemplate
      · intro hsame
        exact absurd hsame (hother _)
    case templated =>
      intro htemplate
      cases hsource.symm.trans htemplate
    case ruled => exact fun _ => ⟨rule, hmem, hid, htrigger⟩
    case seq => rfl
  · obtain ⟨_, hsource, hid, haction⟩ :=
      wellFormed_of_templateDiff strategy.table.level_rules_le htemplate
    -- The template is that of the mode after the pass, which its id names.
    have hafter : asked.id = "template:" ++ (c.handle event).1.mode := by
      rw [hid, Controller.mode, store_handle]
    constructor
    case mode =>
      intro hswitch
      rcases haction with hset | hclear
      · cases hset.symm.trans hswitch
      · cases hclear.symm.trans hswitch
    case template_iff => exact ⟨fun _ => hafter, fun _ => hsource⟩
    case templated => exact fun _ => haction
    case ruled => exact fun hother => absurd hafter hother
    case seq => rfl

variable {log : List (Turn τ)} {c : Controller τ}

/-- Passes are numbered from one on. -/
theorem Logged.seqs (h : Logged strategy log c) :
    c.seq = log.length ∧ log.map (fun t => t.pass.seq) = List.range' 1 log.length := by
  induction h with
  | start table c hstart =>
    obtain ⟨_, rules, _, rfl⟩ := start_eq_ok hstart
    exact ⟨rfl, rfl⟩
  | handle log c event _ ih =>
    obtain ⟨hseq, hlog⟩ := ih
    -- The new pass has the number after that of the controller.
    have hpass : ({ before := c, event : Turn τ }).pass.seq = c.seq + 1 := rfl
    have hafter : (c.handle event).1.seq = c.seq + 1 := rfl
    rw [List.length_append, List.length_singleton, List.map_append, hlog, hafter, hseq]
    refine ⟨rfl, ?_⟩
    rw [List.range'_1_concat, List.map_singleton, hpass, hseq, Nat.add_comm 1]
  | tracker _ _ _ _ ih | table _ _ _ _ ih | withVerbs _ _ _ _ ih | withTrace _ _ _ _ ih
  | dropTrace _ _ _ ih => exact ih

/-- Every envelope of a run is well-formed, says truly who asked for it
and carries the number of its pass; and passes are numbered in order,
from one on. -/
theorem Logged.wellFormed_requests (h : Logged strategy log c) :
    log.map (fun t => t.pass.seq) = List.range' 1 log.length ∧
      ∃ rules, Rule.compileAll strategy.rules = .ok rules ∧
        ∀ t ∈ log, ∀ e ∈ t.pass.actions, e.WellFormed ∧ t.Issues strategy rules e := by
  have hcompiled := h.reachable.keeps.compiled
  refine ⟨h.seqs.2, c.engine.rules, hcompiled, ?_⟩
  intro t ht e he
  have hkeeps := (h.reachable_before ht).keeps
  -- All controllers of a run have the same rules.
  have hrules : t.before.engine.rules = c.engine.rules :=
    Except.ok.inj (hkeeps.compiled.symm.trans hcompiled)
  exact ⟨hkeeps.wellFormed_handle he, hrules ▸ hkeeps.issues_handle he⟩

/-- Two passes of a strategy that takes the line down, switches its
mode and sets a variable at a seven-out. The template asks only where
the mode changes. -/
theorem wellFormed_requests_coldHand :
    ∃ (log : List (Turn PaperTable)) (c : Controller PaperTable), Logged coldHand log c ∧
      log.map (fun t => t.pass.actions.map Envelope.display) =
        [["[rule:#1] switch_mode (Hot)", "[template:Hot] set field $20 (template diff)",
            "[rule:#1] clear pass_line", "[rule:#1] setvar (units = 15)"],
          ["[rule:#1] switch_mode (Hot)", "[rule:#1] clear pass_line",
            "[rule:#1] setvar (units = 15)"]] ∧
      log.map (fun t => t.pass.seq) = [1, 2] ∧
      ∃ rules, Rule.compileAll coldHand.rules = .ok rules ∧
        ∀ t ∈ log, ∀ e ∈ t.pass.actions, e.WellFormed ∧ t.Issues coldHand rules e := by
  let table : PaperTable := { bets := .empty, bankroll := 100 }
  let twice : Controller PaperTable → List (Turn PaperTable) := fun c =>
    [{ before := c, event := sevenOut }, { before := (c.handle sevenOut).1, event := sevenOut }]
  have hshown : (Controller.start coldHand table).toOption.map (fun c =>
      (twice c).map fun t => t.pass.actions.map Envelope.display) =
        some [["[rule:#1] switch_mode (Hot)", "[template:Hot] set field $20 (template diff)",
            "[rule:#1] clear pass_line", "[rule:#1] setvar (units = 15)"],
          ["[rule:#1] switch_mode (Hot)", "[rule:#1] clear pass_line",
            "[rule:#1] setvar (units = 15)"]] := by
    decide +kernel
  obtain ⟨c, hstart, hactions⟩ := exists_ok_of_toOption hshown
  have hlogged : Logged coldHand (twice c) ((c.handle sevenOut).1.handle sevenOut).1 :=
    .handle _ _ sevenOut (.handle _ _ sevenOut (.start table c hstart))
  exact ⟨twice c, _, hlogged, hactions, hlogged.wellFormed_requests⟩

end Controller

end CrapsStrategy
