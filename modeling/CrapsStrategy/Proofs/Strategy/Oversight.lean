import CrapsStrategy.Proofs.Json.Ordered
import CrapsStrategy.Proofs.Strategy.Decode

/-!
# `CrapsStrategy.Proofs.Strategy.Oversight`: what a check overlooks

A strategy document is read twice: the check walks it and the decoder
reads it. `StepOversight`, `RuleOversight` and `Stuck` are what the
check lets pass and the decoder refuses, in steps, in rules and in
templates, and `Strategy.Oversight` is a document with any of them.

A document that the check finds no problem with gives a strategy
exactly when it has no oversight (`Strategy.load_of_isClean`).
-/

set_option autoImplicit false

namespace CrapsStrategy

open Decode

/-! ### Steps -/

/-- What the check of a step overlooks: a field under both of its
names, and a text field that is no text. -/
inductive StepOversight : Json → Prop
  | twoNames (fields : List (String × Json)) (names : String × String)
      (hnames : names ∈ [("action", "verb"), ("bet_type", "bet")])
      (hfirst : (fields.lookup names.1).isSome = true)
      (hsecond : (fields.lookup names.2).isSome = true) : StepOversight (.object fields)
  | notText (fields : List (String × Json)) (name : String) (field : Json)
      (hname : name ∈ ["bet_type", "bet", "notes", "mode", "var"])
      (hfield : fields.lookup name = some field) (htext : field.isNullableText = false) :
      StepOversight (.object fields)

/-- The field that names the verb of a step holds a text, if there is
only one. -/
theorem Check.isNullableText_of_stepVerb? {fields : List (String × Json)} {verb : String}
    (hverb : stepVerb? fields = some verb)
    (hone : ¬ ((fields.lookup "action").isSome = true ∧ (fields.lookup "verb").isSome = true)) :
    ∀ name ∈ ["action", "verb"], ∀ field, fields.lookup name = some field →
      field.isNullableText = true := by
  unfold stepVerb? at hverb
  rw [List.forall_mem_cons, List.forall_mem_singleton]
  cases haction : fields.lookup "action" with
  | some action =>
    rw [haction] at hverb hone
    simp only [Option.isSome_some, true_and, Option.not_isSome_iff_eq_none] at hone
    rw [hone, Json.eq_text_of_text? hverb]
    constructor
    · intro field hfield
      cases hfield
      rfl
    · intro field hfield
      cases hfield
  | none =>
    rw [haction] at hverb
    obtain ⟨other, hother, htext⟩ := Option.bind_eq_some_iff.1 hverb
    rw [hother, Json.eq_text_of_text? htext]
    constructor
    · intro field hfield
      cases hfield
    · intro field hfield
      cases hfield
      rfl

/-- A step that the check lets pass is decoded unless it is one of its
oversights. -/
theorem StepText.isSome_of_shape {item : Json} (h : Check.StepShape item) :
    (ofJson? item).isSome = true ↔ ¬ StepOversight item := by
  cases h with
  | text s =>
    constructor
    · intro _ hover
      cases hover
    · exact fun _ => rfl
  | object fields verb hverb =>
    -- Decoding asks two things of an object: no field under both its names,
    -- and texts where texts belong. Either one missing is an oversight.
    have hdecoded : (ofJson? (.object fields)).isSome =
        (StepObject.ofJson? (.object fields)).isSome := Option.isSome_map
    rw [hdecoded, StepObject.isSome_ofJson?, StepObject.isSome_aliased?,
      StepObject.isSome_aliased?, isSome_text?, isSome_text?, isSome_text?]
    constructor
    · rintro ⟨⟨haction, _⟩, ⟨hbet, hbets⟩, hnotes, hmode, hvar⟩ hover
      cases hover with
      | twoNames _ names hnames hfirst hsecond =>
        simp only [List.mem_cons, List.not_mem_nil, or_false] at hnames
        rcases hnames with rfl | rfl
        · exact haction ⟨hfirst, hsecond⟩
        · exact hbet ⟨hfirst, hsecond⟩
      | notText _ name field hname hfield htext =>
        have hnullable : field.isNullableText = true := by
          simp only [List.mem_cons, List.not_mem_nil, or_false] at hname
          rcases hname with rfl | rfl | rfl | rfl | rfl
          · exact hbets _ (by simp) field hfield
          · exact hbets _ (by simp) field hfield
          · exact hnotes field hfield
          · exact hmode field hfield
          · exact hvar field hfield
        rw [htext] at hnullable
        cases hnullable
    · intro hnone
      have hnames : ∀ names ∈ [("action", "verb"), ("bet_type", "bet")],
          ¬ ((fields.lookup names.1).isSome = true ∧ (fields.lookup names.2).isSome = true) :=
        fun names hnames hboth => hnone (.twoNames fields names hnames hboth.1 hboth.2)
      have htexts : ∀ name ∈ ["bet_type", "bet", "notes", "mode", "var"], ∀ field,
          fields.lookup name = some field → field.isNullableText = true := by
        intro name hname field hfield
        rw [← Bool.not_eq_false]
        exact fun htext => hnone (.notText fields name field hname hfield htext)
      have haction := hnames ("action", "verb") (by simp)
      refine ⟨⟨haction, ?_⟩, ⟨hnames ("bet_type", "bet") (by simp), fun name hname =>
        htexts name ?_⟩, htexts "notes" (by simp), htexts "mode" (by simp),
        htexts "var" (by simp)⟩
      · exact Check.isNullableText_of_stepVerb? hverb haction
      · simp only [List.mem_cons, List.not_mem_nil, or_false] at hname ⊢
        rcases hname with rfl | rfl <;> simp

/-! ### Rules -/

/-- What the check of a rule overlooks: a name or an id that is no
text, a cooldown past the limit, and arguments that are no object. -/
inductive RuleOversight : Json → Prop
  | label (fields : List (String × Json)) (name : String) (field : Json)
      (hname : name ∈ ["name", "id"]) (hfield : fields.lookup name = some field)
      (htext : field.isNullableText = false) : RuleOversight (.object fields)
  | cooldown (fields : List (String × Json)) (n : Nat)
      (hcooldown : fields.lookup "cooldown" = some (.int n))
      (hlimit : RuleSection.maxCooldown < n) : RuleOversight (.object fields)
  | arguments (fields step : List (String × Json)) (arguments : Json)
      (hstep : fields.lookup "then" = some (.object step))
      (harguments : step.lookup "args" = some arguments) (hobject : arguments.object? = none) :
      RuleOversight (.object fields)
  | step (fields : List (String × Json)) (items : List Json) (item : Json)
      (hsteps : fields.lookup "do" = some (.array items)) (hitem : item ∈ items)
      (hover : StepOversight item) : RuleOversight (.object fields)

namespace RuleSection

/-- A rule that the check lets pass is decoded unless it has one of its
oversights. -/
theorem isSome_of_shape {fields : List (String × Json)} (h : Check.RuleShape fields) :
    (ofJson? (.object fields)).isSome = true ↔ ¬ RuleOversight (.object fields) := by
  -- The fields that the check is as strict about as the decoder.
  have hevent : (Json.optional? trigger? (fields.lookup "on")).isSome = true := by
    obtain ⟨on, event, _, hon, hevent, _⟩ := h.trigger
    rw [hon]
    simp [Json.optional?, trigger?_object hevent]
  have hguard : (text? (fields.lookup "when")).isSome = true := by
    rw [isSome_text?]
    intro j hj
    obtain ⟨s, _, rfl, _⟩ := h.guard j hj
    rfl
  have hscope : (fieldOr? RuleScope.ofJson? .roll (fields.lookup "scope")).isSome = true := by
    rw [isSome_fieldOr?]
    intro j hj
    obtain ⟨s, scope, rfl, hscope⟩ := h.scope j hj
    exact Option.isSome_of_eq_some hscope
  have honce : (fieldOr? Json.bool? false (fields.lookup "once")).isSome = true := by
    rw [isSome_fieldOr?]
    intro j hj
    obtain ⟨b, rfl⟩ := h.once j hj
    rfl
  rw [isSome_ofJson?]
  simp only [hevent, hguard, hscope, honce, true_and, and_true, isSome_text?, isSome_fieldOr?,
    Json.isSome_optional?]
  constructor
  · rintro ⟨hname, hid, hsteps, hthen, hcooldown⟩ hover
    cases hover with
    | label _ name field hlabel hfield htext =>
      have hnullable : field.isNullableText = true := by
        simp only [List.mem_cons, List.not_mem_nil, or_false] at hlabel
        rcases hlabel with rfl | rfl
        · exact hname field hfield
        · exact hid field hfield
      rw [htext] at hnullable
      cases hnullable
    | cooldown _ n hn hlimit =>
      have hwithin := (isSome_natUpTo? n).1 (hcooldown _ hn)
      omega
    | arguments _ step arguments hstep harguments hobject =>
      obtain ⟨verbed, verb, hverbed, hverb⟩ := h.thenStep _ hstep
      cases hverbed
      rcases hthen _ hstep with hnull | hread
      · cases hnull
      · obtain ⟨args, rfl⟩ := (ThenStep.isSome_ofJson? hverb).1 hread arguments harguments
        cases hobject
    | step _ items item hitems hitem hover =>
      obtain ⟨shaped, hshaped, hshapes⟩ := h.steps _ hitems
      cases hshaped
      have hread := isSome_list?.1 (hsteps _ hitems) item hitem
      exact (StepText.isSome_of_shape (hshapes item hitem)).1 hread hover
  · intro hnone
    have hlabels : ∀ name ∈ ["name", "id"], ∀ field, fields.lookup name = some field →
        field.isNullableText = true := by
      intro name hname field hfield
      rw [← Bool.not_eq_false]
      exact fun htext => hnone (.label fields name field hname hfield htext)
    refine ⟨hlabels "name" (by simp), hlabels "id" (by simp), fun j hj => ?_, fun j hj => ?_,
      fun j hj => ?_⟩
    · obtain ⟨items, rfl, hshapes⟩ := h.steps j hj
      rw [isSome_list?]
      intro item hitem
      rw [StepText.isSome_of_shape (hshapes item hitem)]
      exact fun hover => hnone (.step fields items item hj hitem hover)
    · obtain ⟨step, verb, rfl, hverb⟩ := h.thenStep j hj
      refine .inr ((ThenStep.isSome_ofJson? hverb).2 fun arguments harguments => ?_)
      cases hobject : arguments.object? with
      | some args => exact ⟨args, Json.eq_object_of_object? hobject⟩
      | none => exact absurd (.arguments fields step arguments hj harguments hobject) hnone
    · obtain ⟨n, rfl⟩ := h.cooldown j hj
      rw [isSome_natUpTo?, ← Nat.not_lt]
      exact fun hlimit => hnone (.cooldown fields n hj hlimit)

end RuleSection

/-! ### Templates -/

/-- A template entry that the check lets pass and that cannot be
decoded. A bet whose amount or odds are objects is no sized bet, and
as a group it cannot have the flag `working`. -/
inductive Stuck : Json → Prop
  | working (fields inner : List (String × Json)) (name : String) (hname : name ∈ ["amount", "odds"])
      (hinner : fields.lookup name = some (.object inner))
      (hamount : (fields.lookup "amount").isSome = true)
      (hworking : (fields.lookup "working").isSome = true) : Stuck (.object fields)
  | part (fields : List (String × Json)) (field : String × Json) (hfield : field ∈ fields)
      (hstuck : Stuck field.2) : Stuck (.object fields)

namespace Amount

/-- An entry is an amount unless it is an object. -/
theorem isSome_of_shape {groups : Bool} {j : Json} (h : Check.EntryShape groups j) :
    (ofJson? j).isSome = true ↔ j.object? = none := by
  cases h <;> simp [ofJson?, Json.number?, Json.object?]

end Amount

/-- Only an object can be stuck, as numbers and texts are amounts. -/
theorem not_stuck_of_object?_eq_none {j : Json} (h : j.object? = none) : ¬ Stuck j := by
  intro hstuck
  cases hstuck <;> cases h

section Sized

variable {fields : List (String × Json)} {amount : Json}

/-- A sized bet that the check lets pass is read exactly when its
amount and its odds are no objects. -/
theorem SizedBet.isSome_of_shape (hamount : fields.lookup "amount" = some amount)
    (hshape : Check.EntryShape false amount)
    (hodds : ∀ odds, fields.lookup "odds" = some odds → Check.EntryShape false odds)
    (hworking : ∀ j, fields.lookup "working" = some j → ∃ b, j = .bool b)
    (hknown : ∀ field ∈ fields, field.1 ∈ fieldNames) :
    (ofFields? fields).isSome = true ↔ ∀ name ∈ ["amount", "odds"], ∀ field,
      fields.lookup name = some field → field.object? = none := by
  have hflagRead : (Json.optional? Json.bool? (fields.lookup "working")).isSome = true := by
    rw [Json.isSome_optional?]
    intro j hj
    obtain ⟨b, rfl⟩ := hworking j hj
    exact .inr rfl
  have hamountPlain : (∀ field, fields.lookup "amount" = some field → field.object? = none) ↔
      amount.object? = none := by
    rw [hamount]
    simp
  have hoddsRead : (Json.optional? Amount.ofJson? (fields.lookup "odds")).isSome = true ↔
      ∀ odds, fields.lookup "odds" = some odds → odds.object? = none := by
    rw [Json.isSome_optional?]
    refine forall₂_congr fun odds ho => ?_
    rw [Amount.isSome_of_shape (hodds odds ho), or_iff_right_iff_imp]
    rintro rfl
    rfl
  rw [isSome_ofFields? hamount hknown, Amount.isSome_of_shape hshape, hoddsRead,
    List.forall_mem_cons, List.forall_mem_singleton, hamountPlain]
  simp only [hflagRead, true_and]

/-- A field of a sized bet is the flag, which is never stuck, or one of
the two that may be. -/
theorem SizedBet.flag_or_part (hascending : Entries.Ascending fields)
    (hworking : ∀ j, fields.lookup "working" = some j → ∃ b, j = .bool b)
    (hknown : ∀ field ∈ fields, field.1 ∈ fieldNames) {field : String × Json}
    (hfield : field ∈ fields) :
    (field.1 = "working" ∧ ∃ b, field.2 = .bool b) ∨ field.1 ∈ ["amount", "odds"] := by
  have hname := hknown field hfield
  simp only [fieldNames, List.mem_cons, List.not_mem_nil, or_false] at hname ⊢
  rcases hname with hname | hname | hname
  · exact .inr (.inl hname)
  · have hflag := (hascending.mem_iff_lookup field.1 field.2).1 hfield
    rw [hname] at hflag
    exact .inl ⟨hname, hworking _ hflag⟩
  · exact .inr (.inr hname)

/-- A bet with its amount is decoded unless it is stuck, if this is so
of its parts. -/
theorem TemplateEntry.isSome_of_sized (hascending : Entries.Ascending fields)
    (hamount : fields.lookup "amount" = some amount) (hshape : Check.EntryShape false amount)
    (hodds : ∀ odds, fields.lookup "odds" = some odds → Check.EntryShape false odds)
    (hworking : ∀ j, fields.lookup "working" = some j → ∃ b, j = .bool b)
    (hknown : ∀ field ∈ fields, field.1 ∈ SizedBet.fieldNames)
    (hparts : ∀ name ∈ ["amount", "odds"], ∀ field, fields.lookup name = some field →
      ((ofJson? field).isSome = true ↔ ¬ Stuck field)) :
    (ofJson? (.object fields)).isSome = true ↔ ¬ Stuck (.object fields) := by
  have hlookup : ∀ field ∈ fields, fields.lookup field.1 = some field.2 :=
    fun field hfield => (hascending.mem_iff_lookup field.1 field.2).1 hfield
  rw [isSome_ofJson?_object, SizedBet.isSome_of_shape hamount hshape hodds hworking hknown]
  by_cases hplain : ∀ name ∈ ["amount", "odds"], ∀ field, fields.lookup name = some field →
      field.object? = none
  · -- Amount and odds are amounts, so this is a sized bet.
    refine iff_of_true (.inl hplain) ?_
    intro hstuck
    cases hstuck with
    | working _ inner name hname hinner _ _ => cases hplain name hname _ hinner
    | part _ field hfield hstuck =>
      refine not_stuck_of_object?_eq_none ?_ hstuck
      rcases SizedBet.flag_or_part hascending hworking hknown hfield with ⟨_, b, hb⟩ | hname
      · rw [hb]
        rfl
      · exact hplain _ hname _ (hlookup field hfield)
  · -- One of the two is an object, so this can only be a group.
    simp only [hplain, false_or]
    simp only [Classical.not_forall] at hplain
    obtain ⟨name, hname, field, hfield, hobject⟩ := hplain
    obtain ⟨inner, hinner⟩ := Option.ne_none_iff_exists'.1 hobject
    obtain rfl := Json.eq_object_of_object? hinner
    constructor
    · intro hall hstuck
      cases hstuck with
      | working _ _ _ _ _ _ hflag =>
        obtain ⟨j, hj⟩ := Option.isSome_iff_exists.1 hflag
        obtain ⟨b, rfl⟩ := hworking j hj
        have hread := hall _ (Json.mem_of_lookup hj)
        simp [ofJson?] at hread
      | part _ part hpart hstuck =>
        rcases SizedBet.flag_or_part hascending hworking hknown hpart with ⟨_, b, hb⟩ | hname
        · rw [hb] at hstuck
          cases hstuck
        · exact (hparts _ hname _ (hlookup part hpart)).1 (hall part hpart) hstuck
    · intro hnone part hpart
      rcases SizedBet.flag_or_part hascending hworking hknown hpart with ⟨hflag, _⟩ | hpartName
      · have hthere : (fields.lookup "working").isSome = true := by
          rw [← hflag, hlookup part hpart]
          rfl
        have hsized : (fields.lookup "amount").isSome = true := by
          rw [hamount]
          rfl
        exact absurd (.working fields inner name hname hfield hsized hthere) hnone
      · exact (hparts _ hpartName _ (hlookup part hpart)).2
          fun hstuck => hnone (.part fields part hpart hstuck)

end Sized

namespace TemplateEntry

/-- An entry that the check lets pass is decoded unless it is stuck. -/
theorem isSome_of_shape {groups : Bool} {j : Json} (h : Check.EntryShape groups j)
    (hordered : j.isOrdered = true) : (ofJson? j).isSome = true ↔ ¬ Stuck j := by
  induction h with
  | int _ _ | float _ _ | text _ _ _ _ =>
    simp only [ofJson?, Option.isSome_some, true_iff]
    exact not_stuck_of_object?_eq_none rfl
  | sized _ fields amount hamount hshape hodds hworking hknown ihAmount ihOdds =>
    obtain ⟨hascending, hparts⟩ := Json.isOrdered_object.1 hordered
    refine isSome_of_sized hascending hamount hshape hodds hworking hknown ?_
    intro name hname field hfield
    have hfieldOrdered := hparts _ (Json.mem_of_lookup hfield)
    simp only [List.mem_cons, List.not_mem_nil, or_false] at hname
    rcases hname with rfl | rfl
    · rw [hamount] at hfield
      cases hfield
      exact ihAmount hfieldOrdered
    · exact ihOdds field hfield hfieldOrdered
  | group fields hamount hentries ih =>
    obtain ⟨_, hparts⟩ := Json.isOrdered_object.1 hordered
    have hsized : SizedBet.ofFields? fields = none := by
      unfold SizedBet.ofFields?
      rw [hamount]
      rfl
    rw [isSome_ofJson?_object, hsized]
    simp only [Option.isSome_none, Bool.false_eq_true, false_or]
    constructor
    · intro hall hstuck
      cases hstuck with
      | working _ _ _ _ _ hthere _ =>
        rw [hamount] at hthere
        cases hthere
      | part _ field hfield hstuck =>
        exact (ih field hfield (hparts field hfield)).1 (hall field hfield) hstuck
    · intro hnone field hfield
      exact (ih field hfield (hparts field hfield)).2
        fun hstuck => hnone (.part fields field hfield hstuck)

end TemplateEntry

/-! ### Documents -/

namespace TableSection

/-- A table that the check lets pass is decoded. -/
theorem isSome_of_shape {table : List (String × Json)}
    (hbubble : ∀ j, table.lookup "bubble" = some j → ∃ b, j = .bool b)
    (hlevel : ∀ j, table.lookup "level" = some j → ∃ x, j.number? = some x) :
    (ofJson? (.object table)).isSome = true := by
  have hfields := isSome_bind (x := fieldOr? Json.bool? false (table.lookup "bubble"))
    fun bubble => isSome_bind (x := fieldOr? Json.number? defaultLevel (table.lookup "level"))
    fun level => isSome_bind_pure (x := value? (table.lookup "odds_policy"))
      (f := fun oddsPolicy => ({ bubble, level, oddsPolicy } : TableSection))
  refine hfields.2 ⟨?_, ?_, isSome_value? _⟩
  · rw [isSome_fieldOr?]
    intro j hj
    obtain ⟨b, rfl⟩ := hbubble j hj
    rfl
  · rw [isSome_fieldOr?]
    intro j hj
    obtain ⟨x, hx⟩ := hlevel j hj
    exact Option.isSome_of_eq_some hx

end TableSection

namespace Strategy

/-- What the check of a document overlooks. -/
inductive Oversight (document : Json) : Prop
  | template (modes bets : List (String × Json)) (mode entry : String × Json)
      (hmodes : document.field? "modes" = some (.object modes)) (hmode : mode ∈ modes)
      (htemplate : mode.2.field? "template" = some (.object bets)) (hentry : entry ∈ bets)
      (hstuck : Stuck entry.2)
  | rule (rules : List Json) (rule : Json)
      (hrules : document.field? "rules" = some (.array rules)) (hrule : rule ∈ rules)
      (hover : RuleOversight rule)

/-- A mode that the check lets pass is decoded unless its template has
an entry that is stuck. -/
theorem isSome_mode? {mode : Json} (h : Check.ModeShape mode) (hordered : mode.isOrdered = true) :
    (mode? mode).isSome = true ↔ ∀ bets, mode.field? "template" = some (.object bets) →
      ∀ entry ∈ bets, ¬ Stuck entry.2 := by
  obtain ⟨fields, rfl, hshape⟩ := h
  obtain ⟨_, hparts⟩ := Json.isOrdered_object.1 hordered
  have hdecoded : mode? (.object fields) =
      fieldOr? Template.ofJson? .empty (fields.lookup "template") := rfl
  have hentries : ∀ bets, fields.lookup "template" = some (.object bets) →
      ∀ entry ∈ bets, (TemplateEntry.ofJson? entry.2).isSome = true ↔ ¬ Stuck entry.2 := by
    intro bets htemplate entry hentry
    obtain ⟨shaped, hshaped, hshapes⟩ := hshape _ htemplate
    cases hshaped
    obtain ⟨_, hbets⟩ := Json.isOrdered_object.1 (hparts _ (Json.mem_of_lookup htemplate))
    exact TemplateEntry.isSome_of_shape (hshapes entry hentry) (hbets entry hentry)
  rw [hdecoded, isSome_fieldOr?]
  constructor
  · intro hread bets htemplate entry hentry
    exact (hentries bets htemplate entry hentry).1
      (Template.isSome_ofJson?.1 (hread _ htemplate) entry hentry)
  · intro hnone template htemplate
    obtain ⟨bets, rfl, _⟩ := hshape template htemplate
    refine Template.isSome_ofJson?.2 fun entry hentry => ?_
    exact (hentries bets htemplate entry hentry).2 (hnone bets htemplate entry hentry)

/-- A document that the check lets pass is decoded unless it has an
oversight. -/
theorem isSome_of_shape {fields : List (String × Json)}
    (h : Check.DocumentShape (.object fields)) (hordered : (Json.object fields).isOrdered = true) :
    (ofJson? (.object fields)).isSome = true ↔ ¬ Oversight (.object fields) := by
  obtain ⟨_, hparts⟩ := Json.isOrdered_object.1 hordered
  obtain ⟨table, htable, hbubble, hlevel⟩ := h.table
  obtain ⟨vars, hvars⟩ := h.vars
  obtain ⟨modes, hmodes, _, hmodeShapes⟩ := h.modes
  obtain ⟨rules, hrules, hruleShapes⟩ := h.rules
  have hdecoded : (ofJson? (.object fields)).isSome = true ↔
      (TableSection.ofJson? (.object table)).isSome = true ∧
      (fieldOr? variables? .empty (fields.lookup "variables")).isSome = true ∧
      (map? mode? (.object modes)).isSome = true ∧
      (fieldOr? (list? RuleSection.ofJson?) [] (fields.lookup "rules")).isSome = true := by
    show (fields.lookup "table" >>= fun t => TableSection.ofJson? t >>= fun table =>
      fieldOr? variables? .empty (fields.lookup "variables") >>= fun vars =>
      fields.lookup "modes" >>= fun m => map? mode? m >>= fun modes =>
      fieldOr? (list? RuleSection.ofJson?) [] (fields.lookup "rules") >>= fun rules =>
      some ({ table, vars, modes, rules } : Strategy)).isSome = true ↔ _
    rw [show fields.lookup "table" = some (.object table) from htable,
      show fields.lookup "modes" = some (.object modes) from hmodes]
    exact isSome_bind fun _ => isSome_bind fun _ => isSome_bind fun _ => isSome_bind_pure
  have htableRead := TableSection.isSome_of_shape hbubble hlevel
  have hvarsRead : (fieldOr? variables? .empty (fields.lookup "variables")).isSome = true := by
    rw [isSome_fieldOr?]
    intro j hj
    cases hj.symm.trans hvars
    exact isSome_variables?.2 ⟨vars, rfl⟩
  have hmodeParts : ∀ mode ∈ modes, mode.2.isOrdered = true :=
    (Json.isOrdered_object.1 (hparts _ (Json.mem_of_lookup hmodes))).2
  rw [hdecoded]
  simp only [htableRead, hvarsRead, true_and]
  rw [isSome_map?, isSome_fieldOr?]
  constructor
  · rintro ⟨hmodesRead, hrulesRead⟩ hover
    cases hover with
    | template others bets mode entry hothers hmode htemplate hentry hstuck =>
      cases hothers.symm.trans hmodes
      exact (isSome_mode? (hmodeShapes mode hmode) (hmodeParts mode hmode)).1
        (hmodesRead mode hmode) bets htemplate entry hentry hstuck
    | rule others rule hothers hrule hover =>
      cases hothers.symm.trans hrules
      obtain ⟨ruleFields, rfl, hshape⟩ := hruleShapes rule hrule
      exact (RuleSection.isSome_of_shape hshape).1
        (isSome_list?.1 (hrulesRead _ hrules) _ hrule) hover
  · intro hnone
    refine ⟨fun mode hmode => ?_, fun j hj => ?_⟩
    · refine (isSome_mode? (hmodeShapes mode hmode) (hmodeParts mode hmode)).2 ?_
      exact fun bets htemplate entry hentry hstuck =>
        hnone (.template modes bets mode entry hmodes hmode htemplate hentry hstuck)
    · cases hj.symm.trans hrules
      refine isSome_list?.2 fun rule hrule => ?_
      obtain ⟨ruleFields, rfl, hshape⟩ := hruleShapes rule hrule
      exact (RuleSection.isSome_of_shape hshape).2 fun hover =>
        hnone (.rule rules _ hrules hrule hover)

/-- A document that the check finds no problem with is decoded unless it
has one of the oversights. -/
theorem isSome_of_isClean {document : Json} (hordered : document.isOrdered = true)
    (hclean : (check document).isClean = true) :
    (ofJson? document).isSome = true ↔ ¬ Oversight document := by
  obtain ⟨fields, rfl, hshape⟩ := Check.DocumentShape.of_isClean hclean
  exact isSome_of_shape hshape hordered

/-- A document that the check finds no problem with gives a strategy,
unless it has one of the oversights, and then it cannot be decoded. -/
theorem load_of_isClean {document : Json} (hordered : document.isOrdered = true)
    (hclean : (check document).isClean = true) :
    (¬ Oversight document → ∃ strategy, load document = .ok strategy) ∧
      (Oversight document → load document = .error .undecodable) := by
  have hdecoded := isSome_of_isClean hordered hclean
  unfold load
  dsimp only
  rw [if_pos hclean]
  cases hread : ofJson? document with
  | some strategy =>
    rw [hread] at hdecoded
    exact ⟨fun _ => ⟨strategy, rfl⟩, fun hover => absurd hover (hdecoded.1 rfl)⟩
  | none =>
    rw [hread] at hdecoded
    exact ⟨fun hnone => (nomatch hdecoded.2 hnone), fun _ => rfl⟩

/-- A document with a rule whose name is a number. -/
def misnamed : Json :=
  .object [
    ("modes", .object [("Main", .object [("template", .object [])])]),
    ("rules", .array [.object [
      ("do", .array [.object [("action", .text "clear"), ("bet_type", .text "place_6")]]),
      ("name", .int 7), ("on", .object [("event", .text "roll")])]]),
    ("table", .object [("bubble", .bool false), ("level", .int 10)]),
    ("variables", .object [("units", .int 5)])]

/-- The check finds no problem with it, and it gives no strategy. -/
theorem undecodable_misnamed :
    misnamed.isOrdered = true ∧ (check misnamed).isClean = true ∧
      ∀ strategy, load misnamed ≠ .ok strategy := by
  have hread : (load misnamed).toOption.isNone = true := by decide +kernel
  refine ⟨by decide +kernel, by decide +kernel, ?_⟩
  intro strategy hload
  rw [hload] at hread
  cases hread

/-- A rule whose name is a number passes the check and cannot be
decoded. -/
theorem load_misnamed :
    misnamed.isOrdered = true ∧ (check misnamed).isClean = true ∧ Oversight misnamed ∧
      load misnamed = .error .undecodable := by
  have hordered : misnamed.isOrdered = true := by decide +kernel
  have hclean : (check misnamed).isClean = true := by decide +kernel
  have hover : Oversight misnamed :=
    .rule _ _ rfl List.mem_cons_self (.label _ "name" (.int 7) (by simp) rfl rfl)
  exact ⟨hordered, hclean, hover, (load_of_isClean hordered hclean).2 hover⟩

end Strategy

end CrapsStrategy
