import CrapsStrategy.Proofs.Except
import CrapsStrategy.Proofs.Strategy.Decode
import CrapsStrategy.Session.Controller

/-!
# `CrapsStrategy.Proofs.Strategy.Start`: strategies that start

A rule is looked at twice before it runs: the check reads its document,
and compiling reads the decoded section. Trigger and guard are judged
alike, so what the check lets pass compiles. About steps the two
differ. The check asks for a list, and compiling for a list with a
step in it: a rule with an empty list and without the short form is
idle, and refused.

`Controller.start_of_load` says that this is all. A strategy that has
been loaded starts exactly when none of its rules is idle.
-/

set_option autoImplicit false

namespace CrapsStrategy

open Decode

namespace RuleSection

/-- Whether a rule has no steps and no short form. -/
def isIdle (rule : RuleSection) : Bool :=
  rule.steps.isEmpty && rule.thenStep.isNone

variable {fields : List (String × Json)} {rule : RuleSection}

/-- The event and the guard of a decoded rule are what its fields
say. -/
theorem fields_of_ofJson? (h : ofJson? (.object fields) = some rule) :
    Json.optional? trigger? (fields.lookup "on") = some rule.event ∧
      text? (fields.lookup "when") = some rule.guard := by
  simp only [ofJson?, Option.bind_eq_bind, Option.bind_eq_some_iff] at h
  obtain ⟨_, hfields, _, _, _, _, event, hevent, guard, hguard, _, _, _, _, _, _, _, _, _, _, h⟩ := h
  cases hfields
  cases h
  exact ⟨hevent, hguard⟩

/-- A trigger that the check lets pass names an event. -/
theorem trigger_of_shape (h : Check.RuleShape fields)
    (hread : ofJson? (.object fields) = some rule) : ∃ kind, rule.trigger = .ok (some kind) := by
  obtain ⟨on, event, kind, hon, hevent, hkind⟩ := h.trigger
  have hnamed := (fields_of_ofJson? hread).1
  rw [hon] at hnamed
  have htext : rule.event = some event := by
    simpa [Json.optional?, trigger?_object hevent, eq_comm] using hnamed
  refine ⟨kind, ?_⟩
  unfold trigger
  rw [htext]
  simp only [hkind]

/-- A guard that the check lets pass compiles. -/
theorem compileGuard_of_shape (h : Check.RuleShape fields)
    (hread : ofJson? (.object fields) = some rule) : ∃ guard, rule.compileGuard = .ok guard := by
  have hwritten := (fields_of_ofJson? hread).2
  cases hwhen : fields.lookup "when" with
  | none =>
    -- A rule without a guard has a blank one.
    rw [hwhen] at hwritten
    have htext : rule.guardText = "" := by
      rw [guardText, ← Option.some.inj hwritten]
      rfl
    refine ⟨none, ?_⟩
    rw [compileGuard, htext]
    rfl
  | some j =>
    obtain ⟨s, guard, rfl, hguard⟩ := h.guard j hwhen
    rw [hwhen] at hwritten
    have htext : rule.guardText = s := by
      rw [guardText, ← Option.some.inj hwritten]
      rfl
    rw [compileGuard, htext, hguard]
    split
    · exact ⟨none, rfl⟩
    · exact ⟨some guard, rfl⟩

/-- A rule that the check lets pass compiles unless it is idle. -/
theorem compile_of_shape (h : Check.RuleShape fields)
    (hread : ofJson? (.object fields) = some rule) (index : Nat) :
    (rule.isIdle = false → ∃ compiled, Rule.compile index rule = .ok compiled) ∧
      (rule.isIdle = true →
        Rule.compile index rule = .error { id := rule.ruleId index, fault := .noSteps }) := by
  obtain ⟨kind, htrigger⟩ := trigger_of_shape h hread
  obtain ⟨guard, hguard⟩ := compileGuard_of_shape h hread
  have hsteps : rule.compileSteps = if rule.isIdle then .error .noSteps
      else .ok (rule.steps.filterMap Step.ofText? ++ (rule.thenStep.map Step.ofThen).toList) := rfl
  unfold Rule.compile Rule.compileParts
  rw [htrigger, hguard, hsteps]
  constructor
  · intro hbusy
    rw [hbusy]
    exact ⟨_, rfl⟩
  · intro hidle
    rw [hidle]
    rfl

end RuleSection

/-! ### Loaded strategies -/

namespace Strategy

variable {document : Json} {strategy : Strategy}

/-- A document gives the strategy that it is decoded to, if the check
finds no problem with it. -/
theorem load_eq_ok_iff : load document = .ok strategy ↔
    (check document).isClean = true ∧ ofJson? document = some strategy := by
  unfold load
  dsimp only
  by_cases hclean : (check document).isClean = true
  · rw [if_pos hclean]
    cases ofJson? document <;> simp [hclean]
  · rw [if_neg hclean]
    simp [hclean]

/-- A strategy that has been loaded is a decoded document without
problems. -/
theorem shape_of_load (h : load document = .ok strategy) :
    ∃ fields, document = .object fields ∧ Check.DocumentShape (.object fields) ∧
      ofJson? (.object fields) = some strategy := by
  obtain ⟨hclean, hread⟩ := load_eq_ok_iff.1 h
  obtain ⟨fields, rfl, hshape⟩ := Check.DocumentShape.of_isClean hclean
  exact ⟨fields, rfl, hshape, hread⟩

/-- A loaded strategy has the modes and the rules of its document. -/
theorem sections_of_load (h : load document = .ok strategy) :
    (∃ modes, document.field? "modes" = some (.object modes) ∧ modes ≠ [] ∧
      (∀ mode ∈ modes, Check.ModeShape mode.2) ∧
      map? mode? (.object modes) = some strategy.modes) ∧
      ∃ rules : List Json, (∀ rule ∈ rules, ∃ fields, rule = .object fields ∧ Check.RuleShape fields) ∧
        rules.mapM RuleSection.ofJson? = some strategy.rules := by
  obtain ⟨fields, rfl, hshape, hread⟩ := shape_of_load h
  obtain ⟨modes, hmodes, hsome, hmodeShapes⟩ := hshape.modes
  obtain ⟨rules, hrules, hshapes⟩ := hshape.rules
  simp only [ofJson?, Option.bind_eq_bind, Option.bind_eq_some_iff] at hread
  obtain ⟨_, hfields, _, _, _, _, _, _, j, hj, readModes, hreadModes, readRules, hreadRules, hread⟩ :=
    hread
  cases hfields
  cases hread
  cases hj.symm.trans hmodes
  rw [show fields.lookup "rules" = some (.array rules) from hrules] at hreadRules
  exact ⟨⟨modes, hmodes, hsome, hmodeShapes, hreadModes⟩, rules, hshapes, hreadRules⟩

/-- A loaded strategy has modes. -/
theorem modes_ne_nil_of_load (h : load document = .ok strategy) :
    strategy.modes.entries ≠ [] := by
  obtain ⟨⟨modes, _, hsome, _, hread⟩, _⟩ := sections_of_load h
  obtain ⟨entries, hentries, hmodes⟩ := Option.bind_eq_some_iff.1 hread
  rw [← Option.some.inj hmodes]
  refine KeyMap.entries_ofList_ne_nil ?_
  rintro rfl
  obtain ⟨mode, rest, rfl⟩ := List.exists_cons_of_ne_nil hsome
  rw [List.mapM_cons] at hentries
  obtain ⟨_, _, hentries⟩ := Option.bind_eq_some_iff.1 hentries
  obtain ⟨_, _, hentries⟩ := Option.bind_eq_some_iff.1 hentries
  cases hentries

/-- The rules of a loaded strategy compile unless they are idle. -/
theorem compile_of_load (h : load document = .ok strategy) {rule : RuleSection}
    (hrule : rule ∈ strategy.rules) (index : Nat) :
    (rule.isIdle = false → ∃ compiled, Rule.compile index rule = .ok compiled) ∧
      (rule.isIdle = true →
        Rule.compile index rule = .error { id := rule.ruleId index, fault := .noSteps }) := by
  obtain ⟨_, rules, hshapes, hread⟩ := sections_of_load h
  obtain ⟨j, hj, hread⟩ := exists_of_mem_of_mapM hread hrule
  obtain ⟨fields, rfl, hshape⟩ := hshapes j hj
  exact RuleSection.compile_of_shape hshape hread index

/-- All rules of a loaded strategy compile exactly when none is idle. -/
theorem exists_compileAll_of_load (h : load document = .ok strategy) :
    (∃ rules, Rule.compileAll strategy.rules = .ok rules) ↔
      ∀ rule ∈ strategy.rules, rule.isIdle = false := by
  rw [Rule.compileAll, exists_mapM_eq_ok]
  constructor
  · intro hall rule hrule
    obtain ⟨index, hindex⟩ := List.mem_iff_getElem?.1 hrule
    obtain ⟨compiled, hcompiled⟩ := hall (rule, index) (List.mem_zipIdx_iff_getElem?.2 hindex)
    -- An idle rule would not have compiled.
    rw [← Bool.not_eq_true]
    intro hidle
    cases ((compile_of_load h hrule index).2 hidle).symm.trans hcompiled
  · rintro hbusy ⟨rule, index⟩ hposition
    have hrule := List.mem_of_getElem? (List.mem_zipIdx_iff_getElem?.1 hposition)
    exact (compile_of_load h hrule index).1 (hbusy rule hrule)

/-- A rule that does not compile is an idle one. -/
theorem idle_of_compileAll_eq_error (h : load document = .ok strategy) {malformed : MalformedRule}
    (hfailed : Rule.compileAll strategy.rules = .error malformed) :
    ∃ (index : Nat) (rule : RuleSection), strategy.rules[index]? = some rule ∧
      rule.isIdle = true ∧ malformed = { id := rule.ruleId index, fault := .noSteps } := by
  obtain ⟨⟨rule, index⟩, hposition, hrefused⟩ := exists_of_mapM_eq_error hfailed
  have hindex := List.mem_zipIdx_iff_getElem?.1 hposition
  have hcompile := compile_of_load h (List.mem_of_getElem? hindex) index
  have hidle : rule.isIdle = true := by
    rw [← Bool.not_eq_false]
    intro hbusy
    obtain ⟨compiled, hcompiled⟩ := hcompile.1 hbusy
    cases hcompiled.symm.trans hrefused
  refine ⟨index, rule, hindex, hidle, ?_⟩
  cases hrefused.symm.trans (hcompile.2 hidle)
  rfl

end Strategy

namespace Controller

variable {τ : Type} {document : Json} {strategy : Strategy}

/-- A loaded strategy starts at any table unless one of its rules is
idle. If it does not start, it is for such a rule, which is reported
to have no steps. -/
theorem start_of_load (h : Strategy.load document = .ok strategy) (table : τ) :
    ((∃ c, start strategy table = .ok c) ↔ ∀ rule ∈ strategy.rules, rule.isIdle = false) ∧
      ∀ fault, start strategy table = .error fault →
        ∃ (index : Nat) (rule : RuleSection), strategy.rules[index]? = some rule ∧ rule.isIdle = true ∧
          fault = .malformed { id := rule.ruleId index, fault := .noSteps } := by
  have hmodes : strategy.modes.entries.isEmpty = false := by
    rw [List.isEmpty_eq_false_iff]
    exact Strategy.modes_ne_nil_of_load h
  -- A start without modes fails otherwise, and a loaded strategy has one.
  rw [← Strategy.exists_compileAll_of_load h]
  unfold start RuleEngine.compile
  rw [hmodes]
  cases hall : Rule.compileAll strategy.rules with
  | ok rules =>
    constructor
    · exact iff_of_true ⟨_, rfl⟩ ⟨rules, rfl⟩
    · intro fault hfault
      cases hfault
  | error malformed =>
    constructor
    · refine iff_of_false ?_ ?_
      · rintro ⟨c, hc⟩
        cases hc
      · rintro ⟨rules, hrules⟩
        cases hrules
    · intro fault hfault
      obtain ⟨index, rule, hindex, hidle, hmalformed⟩ :=
        Strategy.idle_of_compileAll_eq_error h hall
      refine ⟨index, rule, hindex, hidle, ?_⟩
      rw [← hmalformed]
      cases hfault
      rfl

/-- A document with one rule, which has these steps on every roll. -/
def onRoll (steps : List Json) : Json :=
  .object [
    ("modes", .object [("Main", .object [("template", .object [])])]),
    ("rules", .array [.object [("do", .array steps), ("on", .object [("event", .text "roll")])]]),
    ("table", .object [("bubble", .bool false), ("level", .int 10)]),
    ("variables", .object [("units", .int 5)])]

/-- With a step in it the strategy is loaded and starts. -/
theorem start_onRoll_clear :
    ∃ strategy, Strategy.load (onRoll [.text "clear place_6"]) = .ok strategy ∧
      ∃ c, start strategy { bets := .empty, bankroll := 100 : PaperTable } = .ok c := by
  have hread : (Strategy.load (onRoll [.text "clear place_6"])).toOption.map
      (fun strategy => strategy.rules.map RuleSection.isIdle) = some [false] := by
    decide +kernel
  obtain ⟨strategy, hload, hidle⟩ := exists_ok_of_toOption hread
  refine ⟨strategy, hload, (start_of_load hload _).1.2 fun rule hrule => ?_⟩
  have hmem := List.mem_map_of_mem (f := RuleSection.isIdle) hrule
  rw [hidle] at hmem
  exact List.mem_singleton.1 hmem

/-- Without one it is loaded as well, and does not start. -/
theorem start_onRoll_nothing :
    ∃ strategy, Strategy.load (onRoll []) = .ok strategy ∧
      start strategy { bets := .empty, bankroll := 100 : PaperTable } =
        .error (.malformed { id := "rule:#1", fault := .noSteps }) := by
  let refusal := fun strategy : Strategy =>
    match start strategy { bets := .empty, bankroll := 100 : PaperTable } with
    | .ok _ => none
    | .error fault => some fault
  have hread : (Strategy.load (onRoll [])).toOption.map refusal =
      some (some (.malformed { id := "rule:#1", fault := .noSteps })) := by
    decide +kernel
  obtain ⟨strategy, hload, hrefused⟩ := exists_ok_of_toOption hread
  refine ⟨strategy, hload, ?_⟩
  cases hstart : start strategy { bets := .empty, bankroll := 100 : PaperTable } with
  | ok c => simp [refusal, hstart] at hrefused
  | error fault => simpa [refusal, hstart] using hrefused

end Controller

end CrapsStrategy
