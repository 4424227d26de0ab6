import CrapsStrategy.Proofs.Rule.Step
import CrapsStrategy.Proofs.Strategy.Decode

/-!
# `CrapsStrategy.Proofs.Strategy.Steps`: steps without a caution

The check and the engine tell statements from verbs by different tests.
The check lets a text pass when its first word is a verb or when it
compiles at all. The engine takes it for statements only when it has an
assignment, and else takes its first word for a verb. They part on a
text that compiles without an assignment and does not start with a verb
(`Step.IsBareFormula`), of which no caution tells and which no run can
do.

`Strategy.resolves_iff_of_isClean` says that among the listed steps
these are the only ones, and that the short form, whose verb the check
does not look at, goes by its verb alone.
-/

set_option autoImplicit false

namespace CrapsStrategy

/-! ### Cautions about steps -/

/-- Whether a caution is about the step at a path. -/
def Caution.isAbout (path : String) : Caution → Bool
  | skippedText place _ => place == path
  | skippedVerb place _ => place == path
  | _ => false

namespace Report

/-- A caution of two reports is a caution of one of them. -/
theorem mem_cautions_append {a b : Report} {caution : Caution} :
    caution ∈ (a ++ b).cautions ↔ caution ∈ a.cautions ∨ caution ∈ b.cautions :=
  List.mem_append

/-- A caution of one part is one of the whole report. -/
theorem mem_cautions_join {reports : List Report} {report : Report} {caution : Caution}
    (hreport : report ∈ reports) (h : caution ∈ report.cautions) :
    caution ∈ (join reports).cautions :=
  List.mem_flatMap.2 ⟨report, hreport, h⟩

/-- The findings on the items of a list, each under its position. -/
theorem mem_cautions_items (check : Json × Nat → Report) {items : List Json} {item : Json}
    {i : Nat} (hitem : items[i]? = some item) {caution : Caution}
    (h : caution ∈ (check (item, i)).cautions) :
    caution ∈ (join (items.zipIdx.map check)).cautions :=
  mem_cautions_join (List.mem_map.2 ⟨(item, i), List.mem_zipIdx_iff_getElem?.2 hitem, rfl⟩) h

end Report

namespace Check

open Report

/-- Where a step is in the rules. -/
def stepPath (i j : Nat) : String :=
  "rules[" ++ toString i ++ "]" ++ ".do" ++ "[" ++ toString j ++ "]"

/-- Whether the check of a document tells of the step at a path. -/
def warns (document : Json) (path : String) : Bool :=
  (Strategy.check document).cautions.any (Caution.isAbout path)

section

variable {document rule item : Json} {rules items : List Json} {i j : Nat}

/-- What a step is told of, the document is. -/
theorem mem_cautions_of_step (hrules : document.field? "rules" = some (.array rules))
    (hrule : rules[i]? = some rule) (hitems : rule.field? "do" = some (.array items))
    (hitem : items[j]? = some item) {caution : Caution}
    (h : caution ∈ (step (stepPath i j) item).cautions) :
    caution ∈ (Strategy.check document).cautions := by
  obtain ⟨sections, rfl, hsections⟩ := Json.eq_object_of_field? hrules
  obtain ⟨fields, rfl, hfields⟩ := Json.eq_object_of_field? hitems
  have hsteps : caution ∈ (optional (steps ("rules[" ++ toString i ++ "]" ++ ".do"))
      (fields.lookup "do")).cautions := by
    rw [hfields]
    exact mem_cautions_items (fun entry => step _ entry.1) hitem h
  have hchecked : caution ∈
      (Check.rule ("rules[" ++ toString i ++ "]") (.object fields)).cautions := by
    show caution ∈ (_ ++ _ ++ _ ++ _ ++ _ ++ _ ++ _ ++ _ : Report).cautions
    simp only [mem_cautions_append]
    tauto
  have hall : caution ∈ (optional Check.rules (sections.lookup "rules")).cautions := by
    rw [hsections]
    exact mem_cautions_items _ hrule hchecked
  show caution ∈ (_ ++ _ ++ _ ++ _ ++ _ : Report).cautions
  exact mem_cautions_append.2 (.inr hall)

/-- A text without a caution is a verb or compiles. -/
theorem compiles_of_quiet {path text : String}
    (h : ∀ caution ∈ (step path (.text text)).cautions, caution.isAbout path = false) :
    isKnownVerb (Text.firstWord text) = true ∨ ∃ script, Script.compile text = .ok script := by
  by_contra hneither
  rw [not_or, not_exists] at hneither
  obtain ⟨hverb, hscript⟩ := hneither
  cases hcompiles : Script.compile text with
  | ok script => exact hscript script hcompiles
  | error fault =>
    rw [step, if_neg hverb, hcompiles] at h
    have hnot := h (.skippedText path text) (List.mem_singleton.2 rfl)
    rw [Caution.isAbout, beq_self_eq_true] at hnot
    cases hnot

/-- An object without a caution names a verb. -/
theorem isKnownVerb_of_quiet {path verb : String} {fields : List (String × Json)}
    (hverb : stepVerb? fields = some verb)
    (h : ∀ caution ∈ (step path (.object fields)).cautions, caution.isAbout path = false) :
    isKnownVerb verb = true := by
  by_contra hunknown
  rw [step, hverb] at h
  dsimp only at h
  rw [if_neg hunknown] at h
  have hnot := h (.skippedVerb path verb) (List.mem_singleton.2 rfl)
  rw [Caution.isAbout, beq_self_eq_true] at hnot
  cases hnot

end

end Check

/-! ### Steps that resolve -/

/-- The verb that an object names is that of its step. -/
theorem StepObject.action_of_ofJson? {fields : List (String × Json)} {written : StepObject}
    (h : ofJson? (.object fields) = some written) {verb : String}
    (hverb : Check.stepVerb? fields = some verb) : written.action = some verb := by
  have haction : aliased? "action" "verb" fields = some written.action := by
    simp only [ofJson?, Option.bind_eq_bind, Option.bind_eq_some_iff] at h
    obtain ⟨_, hfields, action, haction, _, _, _, _, _, _, _, _, _, _, _, _, h⟩ := h
    cases hfields
    cases h
    exact haction
  unfold aliased? at haction
  unfold Check.stepVerb? at hverb
  cases hfirst : fields.lookup "action" with
  | some field =>
    rw [hfirst] at haction hverb
    obtain rfl := Json.eq_text_of_text? hverb
    cases hsecond : fields.lookup "verb" with
    | some other => rw [hsecond] at haction; cases haction
    | none =>
      rw [hsecond] at haction
      exact (Option.some.inj haction).symm
  | none =>
    rw [hfirst] at haction hverb
    obtain ⟨field, hsecond, htext⟩ := Option.bind_eq_some_iff.1 hverb
    obtain rfl := Json.eq_text_of_text? htext
    rw [hsecond] at haction
    exact (Option.some.inj haction).symm

namespace Step

/-- Whether a step text is only an expression: it compiles without an
assignment, and its first word is no verb. -/
def IsBareFormula (text : String) : Prop :=
  Check.isKnownVerb (Text.firstWord text) = false ∧
    ∃ script, Script.compile text = .ok script ∧ script.hasAssignments = false

/-- A text that is a verb or compiles resolves unless it is only an
expression. -/
theorem resolves_iff_not_isBareFormula {text : String} {made : Step} (h : read? text = some made)
    (hquiet : Check.isKnownVerb (Text.firstWord text) = true ∨
      ∃ script, Script.compile text = .ok script) :
    made.Resolves ↔ ¬ IsBareFormula text := by
  rw [resolves_read?_iff h]
  constructor
  · rintro (hverb | ⟨script, hscript, hassigns⟩) ⟨hunknown, other, hother, hnone⟩
    · rw [hunknown] at hverb
      cases hverb
    · cases hscript.symm.trans hother
      rw [hnone] at hassigns
      cases hassigns
  · intro hbare
    rcases hquiet with hverb | ⟨script, hscript⟩
    · exact .inl hverb
    · by_contra hneither
      rw [not_or, Bool.not_eq_true] at hneither
      refine hbare ⟨hneither.1, script, hscript, Bool.eq_false_iff.2 fun hassigns => ?_⟩
      exact hneither.2 ⟨script, hscript, hassigns⟩

/-- The short form of a step resolves if its verb is known. -/
theorem resolves_ofThen_iff {written : ThenStep} :
    (ofThen written).Resolves ↔ Check.isKnownVerb (Text.trim written.verb) = true := by
  rw [ofThen, resolves_call_iff, isKnownVerb_lower]

end Step

namespace Strategy

/-- In a document that passes the check, a listed step that is told of
by no caution resolves unless it is a text that is only an expression.
The short form resolves when its verb is a standard one. -/
theorem resolves_iff_of_isClean {document : Json} (h : (check document).isClean = true)
    {rules : List Json} (hrules : document.field? "rules" = some (.array rules)) {i : Nat}
    {rule : Json} (hrule : rules[i]? = some rule) :
    (∀ items, rule.field? "do" = some (.array items) → ∀ j item, items[j]? = some item →
      Check.warns document (Check.stepPath i j) = false →
      ∀ written, StepText.ofJson? item = some written →
      ∀ made, Step.ofText? written = some made →
        (made.Resolves ↔ ∀ text, item = .text text → ¬ Step.IsBareFormula text)) ∧
    ∀ field, rule.field? "then" = some field →
      ∀ written, ThenStep.ofJson? field = some written →
        ((Step.ofThen written).Resolves ↔
          Check.isKnownVerb (Text.trim written.verb) = true) := by
  refine ⟨fun items hitems j item hitem hwarns written hwritten made hmade => ?_,
    fun _ _ _ _ => Step.resolves_ofThen_iff⟩
  -- No caution of the step is about the step, or it would have been told
  -- of.
  have hquiet : ∀ caution ∈ (Check.step (Check.stepPath i j) item).cautions,
      caution.isAbout (Check.stepPath i j) = false := by
    intro caution hcaution
    rw [← Bool.not_eq_true]
    exact List.any_eq_false.1 hwarns caution
      (Check.mem_cautions_of_step hrules hrule hitems hitem hcaution)
  have hshape : Check.StepShape item := by
    obtain ⟨_, rfl, hdocument⟩ := Check.DocumentShape.of_isClean h
    obtain ⟨others, hothers, hshapes⟩ := hdocument.rules
    cases hothers.symm.trans hrules
    obtain ⟨fields, rfl, hfields⟩ := hshapes rule (List.mem_of_getElem? hrule)
    obtain ⟨sameItems, hsame, hsteps⟩ := hfields.steps _ hitems
    cases hsame
    exact hsteps item (List.mem_of_getElem? hitem)
  cases hshape with
  | text text =>
    cases hwritten
    have hread : Step.read? text = some made := hmade
    -- Of a text the check tries the compiler only, never the verb.
    rw [Step.resolves_iff_not_isBareFormula hread (Check.compiles_of_quiet hquiet)]
    refine ⟨fun hbare other heq => ?_, fun hbare => hbare text rfl⟩
    cases heq
    exact hbare
  | object fields verb hverb =>
    obtain ⟨step, hstep, rfl⟩ := Option.map_eq_some_iff.1 hwritten
    cases hmade
    refine iff_of_true ?_ nofun
    rw [Step.ofObject, Step.resolves_call_iff, StepObject.action_of_ofJson? hstep hverb]
    exact (Step.isKnownVerb_lower verb).trans (Check.isKnownVerb_of_quiet hverb hquiet)

/-- A rule with a word that compiles as a name, a press, and a verb in
the short form that nothing is registered under. -/
def idleRule : Json :=
  .object [
    ("do", .array [.text "explode", .text "press place_6 units"]),
    ("on", .object [("event", .text "roll")]),
    ("then", .object [("verb", .text "parlay")])]

/-- A strategy with that one rule. -/
def idle : Json :=
  .object [
    ("modes", .object [("Main", .object [("template", .object [])])]),
    ("rules", .array [idleRule]),
    ("table", .object []),
    ("variables", .object [("units", .int 5)])]

/-- A name compiles. -/
theorem isBareFormula_explode : Step.IsBareFormula "explode" := by
  have hcompiles : (Script.compile "explode").toOption.map Script.hasAssignments = some false := by
    decide +kernel
  obtain ⟨script, hscript, hnone⟩ := exists_ok_of_toOption hcompiles
  exact ⟨by decide +kernel, script, hscript, hnone⟩

/-- The document passes, and is told of its table only. -/
theorem check_idle : check idle = { problems := [], cautions := [.noLevel] } := by
  obtain ⟨hunknown, script, hscript, _⟩ := isBareFormula_explode
  have hexplode : Check.step (Check.stepPath 0 0) (.text "explode") = .clean := by
    rw [Check.step, hunknown, hscript]
    rfl
  have hpress : Check.step (Check.stepPath 0 1) (.text "press place_6 units") = .clean := by
    rw [Check.step, if_pos (by decide +kernel)]
  have htrigger : Check.trigger "rules[0]" (some (.object [("event", .text "roll")])) = .clean := by
    rw [Check.trigger]
    exact if_pos (by decide +kernel)
  have hrule : Check.rule "rules[0]" idleRule = .clean := by
    show Check.trigger "rules[0]" (some (.object [("event", .text "roll")])) ++ .clean ++ .clean ++
      .join [Check.step (Check.stepPath 0 0) (.text "explode"),
        Check.step (Check.stepPath 0 1) (.text "press place_6 units")] ++
      .clean ++ .clean ++ .clean ++ .clean = (_ : Report)
    rw [htrigger, hexplode, hpress]
    rfl
  show (.clean ++ .caution .noLevel ++ .clean ++ (.clean ++ .join [.join []]) ++
    .join [Check.rule "rules[0]" idleRule] : Report) = _
  rw [hrule]
  rfl

/-- The validator finds no problem in the strategy. -/
theorem isClean_idle : (check idle).isClean = true := by
  rw [check_idle]
  rfl

/-- The only caution is about the table. -/
theorem warns_idle (path : String) : Check.warns idle path = false := by
  rw [Check.warns, check_idle]
  rfl

/-- No caution is about the first step or the short form, and neither
resolves. -/
theorem not_resolves_idle :
    (check idle).isClean = true ∧ (∀ path, Check.warns idle path = false) ∧
      idle.field? "rules" = some (.array [idleRule]) ∧
      idleRule.field? "do" = some (.array [.text "explode", .text "press place_6 units"]) ∧
      (∃ made, Step.ofText? (.text "explode") = some made ∧ ¬ made.Resolves) ∧
      idleRule.field? "then" = some (.object [("verb", .text "parlay")]) ∧
      ∃ written, ThenStep.ofJson? (.object [("verb", .text "parlay")]) = some written ∧
        ¬ (Step.ofThen written).Resolves := by
  obtain ⟨made, hmade⟩ : ∃ made, Step.read? "explode" = some made :=
    Option.isSome_iff_exists.1 (Step.isSome_read?_iff.2 (by decide +kernel))
  refine ⟨isClean_idle, warns_idle, rfl, rfl, ⟨made, hmade, fun hresolves => ?_⟩, rfl,
    { verb := "parlay", arguments := .empty }, rfl, ?_⟩
  · have hcompiles : ∃ script, Script.compile "explode" = .ok script :=
      isBareFormula_explode.2.imp fun _ h => h.1
    exact (Step.resolves_iff_not_isBareFormula hmade (.inr hcompiles)).1 hresolves
      isBareFormula_explode
  · rw [Step.resolves_ofThen_iff]
    decide +kernel

/-- The press beside them starts with a verb and resolves. -/
theorem resolves_press :
    (check idle).isClean = true ∧ idle.field? "rules" = some (.array [idleRule]) ∧
      Check.warns idle (Check.stepPath 0 1) = false ∧
      ∃ made, Step.ofText? (.text "press place_6 units") = some made ∧ made.Resolves := by
  obtain ⟨made, hmade⟩ : ∃ made, Step.read? "press place_6 units" = some made :=
    Option.isSome_iff_exists.1 (Step.isSome_read?_iff.2 (by decide +kernel))
  have hrule := resolves_iff_of_isClean isClean_idle (i := 0) rfl rfl
  have hlisted := hrule.1 _ rfl 1 (.text "press place_6 units") rfl (warns_idle _) _ rfl made hmade
  refine ⟨isClean_idle, rfl, warns_idle _, made, hmade, hlisted.2 fun text htext hbare => ?_⟩
  cases htext
  exact absurd hbare.1 (by decide +kernel)

end Strategy

end CrapsStrategy
