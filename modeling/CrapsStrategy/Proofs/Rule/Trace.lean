import CrapsStrategy.Proofs.Condition.Grammar
import CrapsStrategy.Proofs.Rule.Firing

/-!
# `CrapsStrategy.Proofs.Rule.Trace`: what the trace says of a pass

With tracing on, every judgement of a triggered rule leaves a record.
`Rule.Grounds` says for each verdict what it takes, without the order of
the tests, and `Rule.grounds_judge` that the verdict of a triggered rule
is the one that has its grounds. From this a whole evaluation follows
rule by rule (`RuleEngine.reports_evaluate`).

The guard text of a record is looked up by the id of the rule, and ids
need not be unique. It is that of the first rule with the id
(`RuleEngine.guardTextOf_eq`), which may be another rule
(`guardText_twins`).
-/

set_option autoImplicit false

namespace CrapsStrategy

/-- A record for each element that passes a test and none for the
others. -/
theorem forall₂_filterMap {α β : Type} {related : α → β → Prop} {test : α → Bool}
    {record : α → Option β} {items : List α}
    (hpass : ∀ a ∈ items, test a = true → ∃ b, record a = some b ∧ related a b)
    (hfail : ∀ a ∈ items, test a = false → record a = none) :
    List.Forall₂ related (items.filter test) (items.filterMap record) := by
  induction items with
  | nil => exact .nil
  | cons a items ih =>
    rw [List.forall_mem_cons] at hpass hfail
    have hrest := ih hpass.2 hfail.2
    cases htest : test a with
    | true =>
      obtain ⟨b, hb, hrelated⟩ := hpass.1 htest
      rw [List.filter_cons_of_pos htest, List.filterMap_cons_some hb]
      exact .cons hrelated hrest
    | false =>
      rw [List.filter_cons_of_neg (by simp [htest]), List.filterMap_cons_none (hfail.1 htest)]
      exact hrest

/-! ### Verdicts and their grounds -/

/-- Whether a rule is live and waits for the event of a snapshot. -/
def ArmedRule.isTriggered (armed : ArmedRule) (snapshot : Snapshot) : Bool :=
  !armed.state.disabled && armed.rule.trigger == some snapshot.event

namespace Rule

/-- Whether a rule is locked for the hand or the session of a
snapshot. -/
def IsLocked (rule : Rule) (state : RuleState) (snapshot : Snapshot) : Prop :=
  ∃ lock, rule.scope.lock? snapshot.handId = some lock ∧ state.lock = some lock

/-- What a verdict on a triggered rule takes. -/
inductive Grounds (rule : Rule) (state : RuleState) (snapshot : Snapshot) : Verdict → Prop
  | scopeLocked (hlocked : rule.IsLocked state snapshot) :
      Grounds rule state snapshot .scopeLocked
  | resting (hfree : ¬ rule.IsLocked state snapshot) (hresting : 0 < state.resting) :
      Grounds rule state snapshot (.resting state.resting)
  | guardFalse (hfree : ¬ rule.IsLocked state snapshot) (hrested : state.resting = 0)
      (guard : Guard) (hguard : rule.guard = some guard)
      (htest : guard.test snapshot.scope = .ok false) : Grounds rule state snapshot .guardFalse
  | guardFault (hfree : ¬ rule.IsLocked state snapshot) (hrested : state.resting = 0)
      (guard : Guard) (hguard : rule.guard = some guard) (fault : Fault)
      (htest : guard.test snapshot.scope = .error fault) :
      Grounds rule state snapshot (.guardFault fault)
  | fired (hfree : ¬ rule.IsLocked state snapshot) (hrested : state.resting = 0)
      (hguard : rule.GuardHolds snapshot) : Grounds rule state snapshot .fired

variable {rule : Rule} {state : RuleState} {snapshot : Snapshot}

/-- A rule is locked for a snapshot exactly when the test of the
judgement says so. -/
theorem isLocked_iff : rule.IsLocked state snapshot ↔
    ((rule.scope.lock? snapshot.handId).isSome &&
      state.lock == rule.scope.lock? snapshot.handId) = true := by
  rw [IsLocked, Bool.and_eq_true, Option.isSome_iff_exists, beq_iff_eq]
  constructor
  · rintro ⟨lock, hkey, hlock⟩
    exact ⟨⟨lock, hkey⟩, hlock.trans hkey.symm⟩
  · rintro ⟨⟨lock, hkey⟩, hlock⟩
    exact ⟨lock, hkey, hlock.trans hkey⟩

/-- A triggered rule gets one verdict, and that has its grounds. -/
theorem grounds_judge (h : ({ rule, state } : ArmedRule).isTriggered snapshot = true) :
    ∃ verdict, (rule.judge state snapshot).2 = some verdict ∧
      rule.Grounds state snapshot verdict := by
  have hlive : ¬ (state.disabled || rule.trigger != some snapshot.event) = true := by
    simpa [ArmedRule.isTriggered] using h
  unfold judge
  dsimp only
  -- The looks in their order: the lock, the rest, and last the guard.
  rw [if_neg hlive]
  split
  · rename_i hlocked
    exact ⟨_, rfl, .scopeLocked (isLocked_iff.2 hlocked)⟩
  rename_i hopen
  have hfree : ¬ rule.IsLocked state snapshot := fun hlocked => hopen (isLocked_iff.1 hlocked)
  rw [RuleState.resting_refresh]
  split
  · rename_i hresting
    exact ⟨_, rfl, .resting hfree hresting⟩
  rename_i hrested
  rw [Nat.not_lt, Nat.le_zero] at hrested
  split
  · rename_i hguard
    refine ⟨_, rfl, .fired hfree hrested fun guard hsome => ?_⟩
    rw [hguard] at hsome
    cases hsome
  · rename_i guard hguard
    split
    · rename_i htest
      refine ⟨_, rfl, .fired hfree hrested fun other hsome => ?_⟩
      rw [hguard] at hsome
      cases hsome
      exact htest
    · rename_i htest
      exact ⟨_, rfl, .guardFalse hfree hrested guard hguard htest⟩
    · rename_i fault htest
      exact ⟨_, rfl, .guardFault hfree hrested guard hguard fault htest⟩

/-- A rule that is not triggered gets no verdict, and keeps its state. -/
theorem judge_of_not_triggered
    (h : ({ rule, state } : ArmedRule).isTriggered snapshot = false) :
    rule.judge state snapshot = (state, none) := by
  have hidle : (state.disabled || rule.trigger != some snapshot.event) = true := by
    rw [← Bool.not_eq_false]
    intro hlive
    simp [ArmedRule.isTriggered] at h
    simp_all
  exact if_pos hidle

end Rule

namespace RuleEngine

/-! ### The records of an evaluation -/

/-- The rules that are judged at a snapshot, with their positions. -/
def triggered (engine : RuleEngine) (snapshot : Snapshot) : List (ArmedRule × Nat) :=
  engine.armed.zipIdx.filter fun entry => entry.1.isTriggered snapshot

/-- A record tells of the rule at a position what became of it, when the
rules at some positions fired. -/
structure Reports (rules : List Rule) (snapshot : Snapshot) (fired : List Nat)
    (entry : ArmedRule × Nat) (record : TraceRecord) : Prop where
  position : rules[entry.2]? = some entry.1.rule
  ruleId : record.ruleId = entry.1.rule.id
  event : record.event = snapshot.event
  rollIndex : record.rollIndex = snapshot.rollIndex
  fired_iff : record.verdict = .fired ↔ entry.2 ∈ fired
  grounds : entry.1.rule.Grounds entry.1.state snapshot record.verdict
  /-- The guard text is the rule's own, unless an earlier rule has the
  same id. -/
  own : (∀ earlier < entry.2, ∀ other, rules[earlier]? = some other →
    other.id ≠ entry.1.rule.id) → record.guardText = entry.1.rule.guardText
  /-- It is always that of the first rule with the id. -/
  guardText : ∃ first named, first ≤ entry.2 ∧ rules[first]? = some named ∧
    named.id = entry.1.rule.id ∧ record.guardText = named.guardText ∧
      ∀ earlier < first, ∀ other, rules[earlier]? = some other → other.id ≠ entry.1.rule.id

/-- The guard text that is looked up for the rule at a position. -/
theorem guardTextOf_eq {engine : RuleEngine} {position : Nat} {rule : Rule}
    (h : engine.rules[position]? = some rule) :
    ∃ first named, first ≤ position ∧ engine.rules[first]? = some named ∧ named.id = rule.id ∧
      engine.guardTextOf rule.id = named.guardText ∧
        ∀ earlier < first, ∀ other, engine.rules[earlier]? = some other → other.id ≠ rule.id := by
  have hsome : (engine.rules.find? fun other => other.id == rule.id).isSome = true := by
    rw [List.find?_isSome]
    exact ⟨rule, List.mem_of_getElem? h, beq_self_eq_true _⟩
  obtain ⟨named, hnamed⟩ := Option.isSome_iff_exists.1 hsome
  obtain ⟨hid, first, hfirst, hat, hbefore⟩ := List.find?_eq_some_iff_getElem.1 hnamed
  have hearlier : ∀ earlier < first, ∀ other, engine.rules[earlier]? = some other →
      other.id ≠ rule.id := by
    intro earlier hlt other hother
    obtain ⟨_, rfl⟩ := List.getElem?_eq_some_iff.1 hother
    simpa using hbefore earlier hlt
  refine ⟨first, named, ?_, ?_, by simpa using hid, ?_, hearlier⟩
  · by_contra hlater
    exact hearlier position (by omega) rule h rfl
  · rw [List.getElem?_eq_getElem hfirst, hat]
  · rw [guardTextOf, hnamed]
    rfl

/-- The record of a rule that is judged on its own. -/
def recordOf? (engine : RuleEngine) (snapshot : Snapshot) (armed : ArmedRule) :
    Option TraceRecord :=
  (armed.rule.judge armed.state snapshot).2.map (engine.recordOf armed.rule.id snapshot)

/-- The trace grows by the records of the rules, one after the other. -/
theorem trace_evaluate {engine : RuleEngine} (htraced : engine.traced = true)
    (snapshot : Snapshot) :
    (engine.evaluate snapshot).1.trace =
      engine.trace ++ engine.armed.zipIdx.filterMap fun entry =>
        engine.recordOf? snapshot entry.1 := by
  have hrecords : (engine.judgeAll snapshot).filterMap (fun j =>
      j.verdict.map (engine.recordOf j.armed.rule.id snapshot)) =
        engine.armed.filterMap (engine.recordOf? snapshot) := by
    rw [judgeAll, List.filterMap_map]
    rfl
  have hpositions : engine.armed.zipIdx.filterMap (fun entry =>
      engine.recordOf? snapshot entry.1) = engine.armed.filterMap (engine.recordOf? snapshot) := by
    have hmap := List.filterMap_map (f := Prod.fst) (g := engine.recordOf? snapshot)
      (l := engine.armed.zipIdx)
    rw [List.zipIdx_map_fst] at hmap
    exact hmap.symm
  rw [hpositions, ← hrecords]
  simp [evaluate, addRecords, htraced]

/-- Each triggered rule leaves a record, and it reports the rule. -/
theorem reports_recordOf {engine : RuleEngine} {snapshot : Snapshot} {armed : ArmedRule}
    {position : Nat} (hat : engine.armed[position]? = some armed)
    (htriggered : armed.isTriggered snapshot = true) :
    ∃ record, engine.recordOf? snapshot armed = some record ∧
      Reports engine.rules snapshot (engine.evaluate snapshot).2 (armed, position) record := by
  obtain ⟨verdict, hverdict, hgrounds⟩ := Rule.grounds_judge htriggered
  have hrule : engine.rules[position]? = some armed.rule := by
    rw [rules, List.getElem?_map, hat, Option.map_some]
  refine ⟨engine.recordOf armed.rule.id snapshot verdict, ?_, ?_⟩
  · rw [recordOf?, hverdict, Option.map_some]
  constructor
  case position => exact hrule
  case ruleId => rfl
  case event => rfl
  case rollIndex => rfl
  case grounds => exact hgrounds
  case guardText => exact guardTextOf_eq hrule
  case own =>
    intro hothers
    -- The text is that of the first rule with the id, which is this one if
    -- no other has it.
    obtain ⟨first, named, hle, hnamed, hid, htext, _⟩ := guardTextOf_eq hrule
    have hfirst : first = position := by
      by_contra hne
      exact hothers first (by omega) named hnamed hid
    subst hfirst
    rw [hnamed] at hrule
    cases hrule
    exact htext
  case fired_iff =>
    show verdict = .fired ↔ position ∈ (engine.evaluate snapshot).2
    simp [mem_evaluate_iff, hat, hverdict]

/-- An evaluation leaves a record for each rule that it judges, in
order. -/
theorem reports_evaluate {engine : RuleEngine} (htraced : engine.traced = true)
    (snapshot : Snapshot) :
    ∃ records, (engine.evaluate snapshot).1.trace = engine.trace ++ records ∧
      List.Forall₂ (Reports engine.rules snapshot (engine.evaluate snapshot).2)
        (engine.triggered snapshot) records := by
  refine ⟨_, trace_evaluate htraced snapshot, forall₂_filterMap ?_ ?_⟩
  · rintro ⟨armed, position⟩ hmem htriggered
    exact reports_recordOf (List.mem_zipIdx_iff_getElem?.1 hmem) htriggered
  · rintro ⟨armed, position⟩ _ hidle
    rw [recordOf?, Rule.judge_of_not_triggered hidle]
    rfl

/-! ### Runs -/

/-- The engines that come up in a run of some rules with tracing on. -/
inductive TracedRun (rules : List Rule) : RuleEngine → Prop
  | start : TracedRun rules ((ofRules rules).withTrace true)
  | tick {engine : RuleEngine} (h : TracedRun rules engine) : TracedRun rules engine.tick
  | evaluate {engine : RuleEngine} (h : TracedRun rules engine) (snapshot : Snapshot) :
      TracedRun rules (engine.evaluate snapshot).1
  | recordDropped {engine : RuleEngine} (h : TracedRun rules engine) (ruleId : String)
      (snapshot : Snapshot) (reason : String) :
      TracedRun rules (engine.recordDropped ruleId snapshot reason)
  | dropTrace {engine : RuleEngine} (h : TracedRun rules engine) :
      TracedRun rules engine.dropTrace

/-- Records do not switch the trace on or off. -/
theorem addRecords_traced (engine : RuleEngine) (records : List TraceRecord) :
    (engine.addRecords records).traced = engine.traced := by
  unfold addRecords
  split <;> rfl

/-- A run keeps its rules and goes on tracing. -/
theorem TracedRun.keeps {rules : List Rule} {engine : RuleEngine} (h : TracedRun rules engine) :
    engine.traced = true ∧ engine.rules = rules := by
  induction h with
  | start => exact ⟨rfl, rules_ofRules rules⟩
  | tick h ih =>
    refine ⟨ih.1, ?_⟩
    rw [← ih.2, RuleEngine.rules, RuleEngine.rules, RuleEngine.tick, List.map_map]
    rfl
  | evaluate h snapshot ih =>
    refine ⟨(addRecords_traced _ _).trans ih.1, ?_⟩
    rw [← ih.2, RuleEngine.rules, RuleEngine.rules, RuleEngine.evaluate, armed_addRecords,
      judgeAll, List.map_map, List.map_map]
    rfl
  | recordDropped h ruleId snapshot reason ih =>
    refine ⟨(addRecords_traced _ _).trans ih.1, ?_⟩
    rw [← ih.2, RuleEngine.rules, RuleEngine.rules, RuleEngine.recordDropped, armed_addRecords]
  | dropTrace h ih => exact ih

/-- In a run with tracing on every evaluation leaves one record for each
rule that is live and waits for the event, in the order of the rules,
and none for another rule. -/
theorem reports_of_tracedRun {rules : List Rule} {engine : RuleEngine}
    (hrun : TracedRun rules engine) (snapshot : Snapshot) :
    ∃ records, (engine.evaluate snapshot).1.trace = engine.trace ++ records ∧
      List.Forall₂ (Reports rules snapshot (engine.evaluate snapshot).2)
        (engine.triggered snapshot) records := by
  obtain ⟨htraced, rfl⟩ := hrun.keeps
  exact reports_evaluate htraced snapshot

end RuleEngine

/-! ### Two rules of one name -/

/-- A rule on rolls that takes a bet down. -/
def RuleSection.takeDown (guard : Option String) : RuleSection :=
  let clear : StepObject :=
    { action := some "clear", bet := some "place_6", amount := none, notes := none, mode := none,
      var := none, value := none }
  { name := some "take_down", id := none, event := some "roll", guard, steps := [.object clear],
    thenStep := none, scope := .roll, cooldown := 0, once := false }

/-- The same rule compiled. -/
def Rule.takeDown (guard : Option Guard) (guardText : String) : Rule :=
  { id := "rule:take_down", trigger := some .roll, guard, guardText,
    steps := [.call { VerbCall.bare "clear" with bet := some "place_6" }],
    scope := .roll, cooldown := 0, once := false }

/-- Whether the point is 6. -/
def Guard.sixOn : Guard :=
  .narrow (.compare .eq (.path "point") (.literal (.int 6)))

/-- The text of the first guard compiles to a comparison of the narrow
dialect. -/
theorem Guard.compile_sixOn : Guard.compile "point == 6" = .ok sixOn := by
  have htokens : tokenize .condition "point == 6" =
      .ok [⟨.name "point", ⟨1, 1⟩⟩, ⟨.symbol .equal, ⟨1, 7⟩⟩, ⟨.int 6, ⟨1, 10⟩⟩,
        ⟨.endOfInput, ⟨1, 11⟩⟩] := by
    decide +kernel
  have hparse : Condition.parse "point == 6" =
      .ok (.compare .eq (.path "point") (.literal (.int 6))) := by
    rw [Condition.parse_eq_ofTokens (by rfl) htokens]
    with_unfolding_all rfl
  have htrim : Text.trim "point == 6" = "point == 6" := by
    rfl
  rw [Guard.compile, Condition.compile, htrim, hparse]
  rfl

namespace RuleEngine

/-- Two rules of one name, the first one with a guard. -/
def twins : List Rule :=
  [.takeDown (some .sixOn) "point == 6", .takeDown none ""]

/-- The two sections compile to the two rules. -/
theorem compileAll_twins :
    Rule.compileAll [.takeDown (some "point == 6"), .takeDown none] = .ok twins := by
  have hfirst : Rule.compile 0 (.takeDown (some "point == 6")) =
      .ok (.takeDown (some .sixOn) "point == 6") := by
    have hguard : (RuleSection.takeDown (some "point == 6")).compileGuard = .ok (some .sixOn) := by
      have hwritten : (RuleSection.takeDown (some "point == 6")).guardText = "point == 6" := rfl
      rw [RuleSection.compileGuard, hwritten, Guard.compile_sixOn]
      rfl
    rw [Rule.compile, Rule.compileParts, hguard]
    rfl
  have hsecond : Rule.compile 1 (.takeDown none) = .ok (.takeDown none "") := rfl
  show (do
    let first ← Rule.compile 0 (.takeDown (some "point == 6"))
    let second ← Rule.compile 1 (.takeDown none)
    return [first, second]) = _
  rw [hfirst, hsecond]
  rfl

/-- A roll while the point is 8. -/
def eightOn : Snapshot :=
  { Snapshot.inHand .roll 1 with point := some 8, onComeout := false }

/-- With the point on 8 only the second rule fires. -/
theorem fired_twins : (((ofRules twins).withTrace true).evaluate eightOn).2 = [1] := by
  decide +kernel

/-- The second rule fires, and its record has the guard text of the
first. -/
theorem guardText_twins :
    Rule.compileAll [.takeDown (some "point == 6"), .takeDown none] = .ok twins ∧
      (((ofRules twins).withTrace true).evaluate eightOn).2 = [1] ∧
      twins.map (fun rule => (rule.id, rule.guardText)) =
        [("rule:take_down", "point == 6"), ("rule:take_down", "")] ∧
      (((ofRules twins).withTrace true).evaluate eightOn).1.trace.map (fun record =>
        (record.ruleId, record.guardText, record.verdict)) =
          [("rule:take_down", "point == 6", .guardFalse),
            ("rule:take_down", "point == 6", .fired)] := by
  refine ⟨compileAll_twins, fired_twins, rfl, ?_⟩
  decide +kernel

/-- What the trace says of the two all the same. -/
theorem reports_twins :
    TracedRun twins ((ofRules twins).withTrace true) ∧ ∃ first second,
      (((ofRules twins).withTrace true).evaluate eightOn).1.trace = [first, second] ∧
      Reports twins eightOn [1] (⟨.takeDown (some .sixOn) "point == 6", .fresh⟩, 0) first ∧
      Reports twins eightOn [1] (⟨.takeDown none "", .fresh⟩, 1) second := by
  have hstart : TracedRun twins ((ofRules twins).withTrace true) := .start
  obtain ⟨records, htrace, hreports⟩ := reports_of_tracedRun hstart eightOn
  have htriggered : ((ofRules twins).withTrace true).triggered eightOn =
      [(⟨.takeDown (some .sixOn) "point == 6", .fresh⟩, 0), (⟨.takeDown none "", .fresh⟩, 1)] :=
    rfl
  rw [fired_twins, htriggered] at hreports
  cases hreports with
  | cons hfirst hrest =>
    cases hrest with
    | cons hsecond hnone =>
      cases hnone
      exact ⟨hstart, _, _, htrace, hfirst, hsecond⟩

end RuleEngine

end CrapsStrategy
