import CrapsStrategy.Proofs.KeyMap
import CrapsStrategy.Strategy.Check

/-!
# `CrapsStrategy.Proofs.Strategy.Check`: what a clean report tells

`Strategy.check` walks a document and collects problems. When it finds
none, the document has the form that the walk was looking for. The
shapes say what that is, section by section and field by field, and
say nothing of a field that the walk does not look at.

`DocumentShape.of_isClean` is the inversion for a whole document. The
entries of a template nest, so their shape is inductive, and its
inversion follows the document down (`EntryShape.of_isClean`).
-/

set_option autoImplicit false

namespace CrapsStrategy

/-! ### Clean reports -/

namespace Report

/-- Reports side by side are clean if both are. -/
@[simp]
theorem isClean_append (a b : Report) : (a ++ b).isClean = (a.isClean && b.isClean) := by
  show (a.problems ++ b.problems).isEmpty = (a.problems.isEmpty && b.problems.isEmpty)
  cases a.problems <;> rfl

/-- A report of many parts is clean if all of them are. -/
theorem isClean_join {reports : List Report} :
    (join reports).isClean = true ↔ ∀ r ∈ reports, r.isClean = true := by
  unfold join isClean
  rw [List.isEmpty_iff, List.flatMap_eq_nil_iff]
  simp only [List.isEmpty_iff]

end Report

namespace Check

open Report

/-- A field that is checked where it is present has passed its check. -/
theorem isClean_optional {check : Json → Report} {field : Option Json}
    (h : (optional check field).isClean = true) {j : Json} (hj : field = some j) :
    (check j).isClean = true := by
  subst hj
  exact h

/-- A field of a wanted form has it. -/
theorem isClean_form {path : String} {wanted : FieldForm} {holds : Json → Bool} {j : Json}
    (h : (form path wanted holds j).isClean = true) : holds j = true := by
  unfold form at h
  cases hj : holds j with
  | true => rfl
  | false =>
    rw [hj] at h
    cases h

/-- The form asked of a flag is that of a truth value. -/
theorem eq_bool_of_isBoolean {j : Json} (h : isBoolean j = true) : ∃ b, j = .bool b := by
  cases j with
  | bool b => exact ⟨b, rfl⟩
  | _ => cases h

end Check

namespace Json

/-- What is viewed as an object is one, with these fields. -/
theorem eq_object_of_object? {j : Json} {fields : List (String × Json)}
    (h : j.object? = some fields) : j = .object fields := by
  cases j with
  | object _ =>
    cases h
    rfl
  | _ => cases h

/-- What is viewed as a list is one, with these items. -/
theorem eq_array_of_array? {j : Json} {items : List Json} (h : j.array? = some items) :
    j = .array items := by
  cases j with
  | array _ =>
    cases h
    rfl
  | _ => cases h

/-- What is viewed as a text is one. -/
theorem eq_text_of_text? {j : Json} {s : String} (h : j.text? = some s) : j = .text s := by
  cases j with
  | text _ =>
    cases h
    rfl
  | _ => cases h

/-- What is viewed as a truth value is one. -/
theorem eq_bool_of_bool? {j : Json} {b : Bool} (h : j.bool? = some b) : j = .bool b := by
  cases j with
  | bool _ =>
    cases h
    rfl
  | _ => cases h

/-- Only an object has fields. -/
theorem eq_object_of_field? {j field : Json} {name : String} (h : j.field? name = some field) :
    ∃ fields, j = .object fields ∧ fields.lookup name = some field := by
  cases j with
  | object fields => exact ⟨fields, rfl, h⟩
  | _ => cases h

/-- A field that is found by its name is one of the fields. -/
theorem mem_of_lookup {fields : List (String × Json)} {name : String} {field : Json}
    (h : fields.lookup name = some field) : (name, field) ∈ fields := by
  obtain ⟨before, after, rfl, _⟩ := List.lookup_eq_some_iff.1 h
  simp

/-- What holds of an object when it holds of its fields, and of all
other documents, holds of every document. -/
theorem object_induction {motive : Json → Prop}
    (object : ∀ fields, (∀ field ∈ fields, motive field.2) → motive (.object fields))
    (other : ∀ j, j.object? = none → motive j) (j : Json) : motive j := by
  cases j with
  | object fields =>
    refine object fields fun field hfield => ?_
    have hlt := List.sizeOf_lt_of_mem hfield
    have hpart : sizeOf field.2 < sizeOf field := by
      rw [Prod.mk.sizeOf_spec]
      omega
    exact object_induction object other field.2
  | null | bool _ | int _ | float _ | text _ | array _ => exact other _ rfl
termination_by sizeOf j
decreasing_by
  subst_vars
  rw [Json.object.sizeOf_spec]
  omega

end Json

namespace Check

open Report

/-! ### Template entries -/

/-- A template entry without problems. In a sized bet the amount and
the odds are entries again, and need not be amounts. -/
inductive EntryShape : Bool → Json → Prop
  | int (groups : Bool) (i : Int) : EntryShape groups (.int i)
  | float (groups : Bool) (x : Binary64) : EntryShape groups (.float x)
  | text (groups : Bool) (s : String) (script : Script) (hscript : Script.compile s = .ok script) :
      EntryShape groups (.text s)
  | sized (groups : Bool) (fields : List (String × Json)) (amount : Json)
      (hamount : fields.lookup "amount" = some amount) (hshape : EntryShape false amount)
      (hodds : ∀ odds, fields.lookup "odds" = some odds → EntryShape false odds)
      (hworking : ∀ j, fields.lookup "working" = some j → ∃ b, j = .bool b)
      (hknown : ∀ field ∈ fields, field.1 ∈ SizedBet.fieldNames) :
      EntryShape groups (.object fields)
  | group (fields : List (String × Json)) (hamount : fields.lookup "amount" = none)
      (hentries : ∀ field ∈ fields, EntryShape false field.2) : EntryShape true (.object fields)

/-- The reports on the entries of a group, each under its own path. -/
theorem entries_eq_map (path : String) (fields : List (String × Json)) :
    entries path fields =
      fields.map fun field => (field.1, entry false (path ++ "." ++ field.1) field.2) := by
  induction fields with
  | nil => rfl
  | cons field fields ih => rw [entries, ih, List.map_cons]

/-- The report on an entry is found by its name, like the entry. -/
theorem lookup_entries (path : String) (fields : List (String × Json)) (name : String) :
    (entries path fields).lookup name =
      (fields.lookup name).map (entry false (path ++ "." ++ name)) := by
  induction fields with
  | nil => rfl
  | cons field fields ih =>
    rw [entries, List.lookup_cons, List.lookup_cons, ih]
    cases hname : name == field.1 with
    | false => rfl
    | true =>
      rw [beq_iff_eq] at hname
      subst hname
      rfl

/-- An entry of which nothing is reported has its shape. The induction
is on objects, and all other documents are decided at once. -/
theorem EntryShape.of_isClean {groups : Bool} {path : String} {j : Json}
    (h : (entry groups path j).isClean = true) : EntryShape groups j := by
  induction j using Json.object_induction generalizing groups path with
  | object fields ih =>
    unfold entry at h
    dsimp only at h
    split at h
    · -- With an amount the entry is a sized bet.
      rename_i report hreport
      rw [lookup_entries, Option.map_eq_some_iff] at hreport
      obtain ⟨amount, hamount, rfl⟩ := hreport
      simp only [isClean_append, Bool.and_eq_true, lookup_entries] at h
      obtain ⟨⟨⟨hclean, hodds⟩, hworking⟩, hknown⟩ := h
      refine .sized groups fields amount hamount (ih _ (Json.mem_of_lookup hamount) hclean)
        (fun odds hfield => ?_) (fun j hj => ?_) fun field hfield => ?_
      · rw [hfield] at hodds
        exact ih _ (Json.mem_of_lookup hfield) hodds
      · exact eq_bool_of_isBoolean (isClean_form (isClean_optional hworking hj))
      · -- A field that is not one of the three would have been reported.
        refine Classical.byContradiction fun hother => ?_
        have hlisted : Problem.unknownField path field.1 ∈ unknownFields path fields := by
          unfold unknownFields
          refine List.mem_map.2 ⟨field, List.mem_filter.2 ⟨hfield, ?_⟩, rfl⟩
          simpa using hother
        rw [Report.isClean, List.isEmpty_iff] at hknown
        rw [show unknownFields path fields = [] from hknown] at hlisted
        cases hlisted
    · rename_i hnone
      rw [lookup_entries, Option.map_eq_none_iff] at hnone
      cases groups with
      | false => cases h
      | true =>
        refine .group fields hnone fun field hfield => ?_
        rw [if_pos rfl, entries_eq_map] at h
        have hfieldClean : (entry false (path ++ "." ++ field.1) field.2).isClean = true := by
          refine isClean_join.1 h _ ?_
          rw [List.map_map]
          exact List.mem_map.2 ⟨field, hfield, rfl⟩
        exact ih field hfield hfieldClean
  | other j hj =>
    cases j with
    | int i => exact .int groups i
    | float x => exact .float groups x
    | text s =>
      unfold entry amountText at h
      split at h
      · rename_i script hscript
        exact .text groups s script hscript
      · cases h
    | object fields => cases hj
    | null | bool _ | array _ => cases h

/-- A mode without problems. -/
def ModeShape (j : Json) : Prop :=
  ∃ fields, j = .object fields ∧ ∀ template, fields.lookup "template" = some template →
    ∃ bets, template = .object bets ∧ ∀ field ∈ bets, EntryShape true field.2

/-- A mode of which nothing is reported is an object, and the entries of
its template have their shape. -/
theorem ModeShape.of_isClean {name : String} {j : Json} (h : (mode name j).isClean = true) :
    ModeShape j := by
  unfold mode at h
  dsimp only at h
  split at h
  · cases h
  · rename_i fields hfields
    obtain rfl := Json.eq_object_of_object? hfields
    refine ⟨fields, rfl, fun template htemplate => ?_⟩
    rw [show Json.field? "template" (.object fields) = some template from htemplate] at h
    dsimp only at h
    split at h
    · cases h
    · rename_i bets hbets
      refine ⟨bets, Json.eq_object_of_object? hbets, fun field hfield => ?_⟩
      exact EntryShape.of_isClean (isClean_join.1 h _ (List.mem_map.2 ⟨field, hfield, rfl⟩))

/-! ### Rules -/

/-- A step without problems. -/
inductive StepShape : Json → Prop
  | text (s : String) : StepShape (.text s)
  | object (fields : List (String × Json)) (verb : String) (hverb : stepVerb? fields = some verb) :
      StepShape (.object fields)

/-- A step of which nothing is reported is a text or names its verb. -/
theorem StepShape.of_isClean {path : String} {j : Json} (h : (step path j).isClean = true) :
    StepShape j := by
  cases j with
  | text s => exact .text s
  | object fields =>
    unfold step at h
    dsimp only at h
    split at h
    · rename_i verb hverb
      exact .object fields verb hverb
    · cases h
  | _ => cases h

/-- A rule without problems. Its name, its id and the arguments of its
short form may be anything. -/
structure RuleShape (fields : List (String × Json)) : Prop where
  trigger : ∃ on event kind, fields.lookup "on" = some (.object on) ∧
    on.lookup "event" = some (.text event) ∧ EventKind.read? event = some kind
  acts : (fields.lookup "do").isSome = true ∨ (fields.lookup "then").isSome = true
  guard : ∀ j, fields.lookup "when" = some j →
    ∃ s guard, j = .text s ∧ Guard.compile s = .ok guard
  steps : ∀ j, fields.lookup "do" = some j →
    ∃ items, j = .array items ∧ ∀ item ∈ items, StepShape item
  thenStep : ∀ j, fields.lookup "then" = some j →
    ∃ step verb, j = .object step ∧ step.lookup "verb" = some (.text verb)
  scope : ∀ j, fields.lookup "scope" = some j →
    ∃ s scope, j = .text s ∧ RuleScope.ofName? s = some scope
  cooldown : ∀ j, fields.lookup "cooldown" = some j → ∃ n : Nat, j = .int n
  once : ∀ j, fields.lookup "once" = some j → ∃ b, j = .bool b

/-- A trigger of which nothing is reported is an object with a known
event. -/
theorem exists_of_isClean_trigger {path : String} {on : Option Json}
    (h : (trigger path on).isClean = true) :
    ∃ fields event kind, on = some (.object fields) ∧
      fields.lookup "event" = some (.text event) ∧ EventKind.read? event = some kind := by
  unfold trigger at h
  split at h
  · rename_i event hevent
    obtain ⟨field, hfield, htext⟩ := Option.bind_eq_some_iff.1 hevent
    obtain ⟨j, rfl, hj⟩ := Option.bind_eq_some_iff.1 hfield
    obtain ⟨fields, rfl, hlookup⟩ := Json.eq_object_of_field? hj
    obtain rfl := Json.eq_text_of_text? htext
    cases hkind : EventKind.read? event with
    | some kind => exact ⟨fields, event, kind, rfl, hlookup, hkind⟩
    | none =>
      rw [hkind] at h
      cases h
  · cases h

/-- A guard of which nothing is reported is a text that compiles. -/
theorem exists_of_isClean_guard {path : String} {j : Json}
    (h : (Check.guard path j).isClean = true) :
    ∃ s guard, j = .text s ∧ Guard.compile s = .ok guard := by
  unfold Check.guard at h
  split at h
  · cases h
  · rename_i s hs
    split at h
    · rename_i guard hguard
      exact ⟨s, guard, Json.eq_text_of_text? hs, hguard⟩
    · cases h

/-- Every item of a list is checked under its position. -/
theorem exists_position {items : List Json} {item : Json} (h : item ∈ items) :
    ∃ i, (item, i) ∈ items.zipIdx := by
  obtain ⟨i, hi⟩ := List.mem_iff_getElem?.1 h
  exact ⟨i, List.mem_zipIdx_iff_getElem?.2 hi⟩

/-- Steps of which nothing is reported are a list of steps. -/
theorem exists_of_isClean_steps {path : String} {j : Json} (h : (steps path j).isClean = true) :
    ∃ items, j = .array items ∧ ∀ item ∈ items, StepShape item := by
  unfold steps at h
  split at h
  · cases h
  · rename_i items hitems
    refine ⟨items, Json.eq_array_of_array? hitems, fun item hitem => ?_⟩
    obtain ⟨i, hi⟩ := exists_position hitem
    exact StepShape.of_isClean (isClean_join.1 h _ (List.mem_map.2 ⟨(item, i), hi, rfl⟩))

/-- The short form of a step is an object that names its verb. Nothing
else in it is looked at. -/
theorem exists_of_isClean_thenStep {path : String} {j : Json}
    (h : (Check.thenStep path j).isClean = true) :
    ∃ step verb, j = .object step ∧ step.lookup "verb" = some (.text verb) := by
  unfold Check.thenStep at h
  split at h
  · rename_i verb hverb
    obtain ⟨field, hfield, htext⟩ := Option.bind_eq_some_iff.1 hverb
    obtain ⟨step, rfl, hlookup⟩ := Json.eq_object_of_field? hfield
    obtain rfl := Json.eq_text_of_text? htext
    exact ⟨step, verb, rfl, hlookup⟩
  · cases h

/-- The form asked of a scope is that of a text with one of their names. -/
theorem exists_of_isScope {j : Json} (h : isScope j = true) :
    ∃ s scope, j = .text s ∧ RuleScope.ofName? s = some scope := by
  obtain ⟨scope, hscope⟩ := Option.isSome_iff_exists.1 h
  obtain ⟨s, hs, hname⟩ := Option.bind_eq_some_iff.1 hscope
  exact ⟨s, scope, Json.eq_text_of_text? hs, hname⟩

/-- The form asked of a cooldown is that of an integer that is not
negative, however large it is. -/
theorem exists_of_isCount {j : Json} (h : isCount j = true) : ∃ n : Nat, j = .int n := by
  cases j with
  | int i => exact ⟨i.toNat, by rw [Int.toNat_of_nonneg (of_decide_eq_true h)]⟩
  | _ => cases h

/-- A rule of which nothing is reported is an object of the shape. -/
theorem RuleShape.of_isClean {path : String} {j : Json} (h : (rule path j).isClean = true) :
    ∃ fields, j = .object fields ∧ RuleShape fields := by
  unfold rule at h
  split at h
  · cases h
  · rename_i fields hfields
    refine ⟨fields, Json.eq_object_of_object? hfields, ?_⟩
    simp only [isClean_append, Bool.and_eq_true] at h
    obtain ⟨⟨⟨⟨⟨⟨⟨htrigger, hacts⟩, hguard⟩, hsteps⟩, hthen⟩, hscope⟩, hcooldown⟩, honce⟩ := h
    constructor
    case trigger => exact exists_of_isClean_trigger htrigger
    case acts =>
      rw [← Bool.or_eq_true]
      cases hsome : (fields.lookup "do").isSome || (fields.lookup "then").isSome with
      | true => rfl
      | false =>
        rw [hsome] at hacts
        cases hacts
    case guard => exact fun j hj => exists_of_isClean_guard (isClean_optional hguard hj)
    case steps => exact fun j hj => exists_of_isClean_steps (isClean_optional hsteps hj)
    case thenStep => exact fun j hj => exists_of_isClean_thenStep (isClean_optional hthen hj)
    case scope => exact fun j hj => exists_of_isScope (isClean_form (isClean_optional hscope hj))
    case cooldown =>
      exact fun j hj => exists_of_isCount (isClean_form (isClean_optional hcooldown hj))
    case once => exact fun j hj => eq_bool_of_isBoolean (isClean_form (isClean_optional honce hj))

/-! ### Documents -/

/-- A document without problems. -/
structure DocumentShape (document : Json) : Prop where
  table : ∃ table, document.field? "table" = some (.object table) ∧
    (∀ j, table.lookup "bubble" = some j → ∃ b, j = .bool b) ∧
    ∀ j, table.lookup "level" = some j → ∃ x, j.number? = some x
  vars : ∃ vars, document.field? "variables" = some (.object vars)
  modes : ∃ modes, document.field? "modes" = some (.object modes) ∧ modes ≠ [] ∧
    ∀ field ∈ modes, ModeShape field.2
  rules : ∃ rules, document.field? "rules" = some (.array rules) ∧
    ∀ rule ∈ rules, ∃ fields, rule = .object fields ∧ RuleShape fields

/-- A table of which nothing is reported is an object, and its flag and
its level are what they should be. -/
theorem exists_of_isClean_table {j : Json} (h : (table j).isClean = true) :
    ∃ fields, j = .object fields ∧
      (∀ j, fields.lookup "bubble" = some j → ∃ b, j = .bool b) ∧
      ∀ j, fields.lookup "level" = some j → ∃ x, j.number? = some x := by
  unfold table at h
  split at h
  · cases h
  · rename_i fields hfields
    simp only [isClean_append, Bool.and_eq_true] at h
    obtain ⟨⟨hbubble, hlevel⟩, _⟩ := h
    refine ⟨fields, Json.eq_object_of_object? hfields,
      fun j hj => eq_bool_of_isBoolean (isClean_form (isClean_optional hbubble hj)),
      fun j hj => ?_⟩
    rw [hj] at hlevel
    unfold level at hlevel
    dsimp only at hlevel
    split at hlevel
    · rename_i x hx
      exact ⟨x, hx⟩
    · cases hlevel

/-- Variables of which nothing is reported are an object, with any
values. -/
theorem exists_of_isClean_vars {j : Json} (h : (vars j).isClean = true) :
    ∃ fields, j = .object fields := by
  unfold vars at h
  split at h
  · cases h
  · rename_i fields hfields
    exact ⟨fields, Json.eq_object_of_object? hfields⟩

/-- Modes of which nothing is reported are an object with one mode at
least. -/
theorem exists_of_isClean_modes {j : Json} (h : (modes j).isClean = true) :
    ∃ fields, j = .object fields ∧ fields ≠ [] ∧ ∀ field ∈ fields, ModeShape field.2 := by
  unfold modes at h
  split at h
  · cases h
  · rename_i fields hfields
    rw [isClean_append, Bool.and_eq_true] at h
    refine ⟨fields, Json.eq_object_of_object? hfields, ?_, fun field hfield => ?_⟩
    · rintro rfl
      cases h.1
    · exact ModeShape.of_isClean (isClean_join.1 h.2 _ (List.mem_map.2 ⟨field, hfield, rfl⟩))

/-- Rules of which nothing is reported are a list of rules. -/
theorem exists_of_isClean_rules {j : Json} (h : (rules j).isClean = true) :
    ∃ items, j = .array items ∧
      ∀ item ∈ items, ∃ fields, item = .object fields ∧ RuleShape fields := by
  unfold rules at h
  split at h
  · cases h
  · rename_i items hitems
    refine ⟨items, Json.eq_array_of_array? hitems, fun item hitem => ?_⟩
    obtain ⟨i, hi⟩ := exists_position hitem
    exact RuleShape.of_isClean (isClean_join.1 h _ (List.mem_map.2 ⟨(item, i), hi, rfl⟩))

/-- A required section is there if none is missed. -/
theorem exists_of_missingSections {fields : List (String × Json)}
    (h : missingSections fields = []) {name : String} (hname : name ∈ requiredSections) :
    ∃ field, fields.lookup name = some field := by
  rw [← Option.isSome_iff_exists]
  refine Classical.byContradiction fun hnone => ?_
  have hlisted : Problem.missingSection name ∈ missingSections fields := by
    unfold missingSections
    refine List.mem_map.2 ⟨name, List.mem_filter.2 ⟨hname, ?_⟩, rfl⟩
    rw [Option.isNone_iff_eq_none]
    exact Option.not_isSome_iff_eq_none.1 hnone
  rw [h] at hlisted
  cases hlisted

/-- What a clean report tells of a document. -/
theorem DocumentShape.of_isClean {document : Json}
    (h : (Strategy.check document).isClean = true) :
    ∃ fields, document = .object fields ∧ DocumentShape document := by
  unfold Strategy.check at h
  split at h
  · cases h
  · rename_i fields hfields
    obtain rfl := Json.eq_object_of_object? hfields
    simp only [isClean_append, Bool.and_eq_true] at h
    obtain ⟨⟨⟨⟨hmissing, htable⟩, hvars⟩, hmodes⟩, hrules⟩ := h
    rw [Report.isClean, List.isEmpty_iff] at hmissing
    -- The checks of the sections are silent about one that is missing,
    -- which is a finding of its own.
    have hthere : ∀ name ∈ requiredSections, ∃ field, fields.lookup name = some field :=
      fun _ hname => exists_of_missingSections hmissing hname
    refine ⟨fields, rfl, ?_⟩
    constructor
    case table =>
      obtain ⟨j, hj⟩ := hthere "table" (by decide)
      obtain ⟨table, rfl, htable⟩ := exists_of_isClean_table (isClean_optional htable hj)
      exact ⟨table, hj, htable⟩
    case vars =>
      obtain ⟨j, hj⟩ := hthere "variables" (by decide)
      obtain ⟨vars, rfl⟩ := exists_of_isClean_vars (isClean_optional hvars hj)
      exact ⟨vars, hj⟩
    case modes =>
      obtain ⟨j, hj⟩ := hthere "modes" (by decide)
      obtain ⟨modes, rfl, hmodes⟩ := exists_of_isClean_modes (isClean_optional hmodes hj)
      exact ⟨modes, hj, hmodes⟩
    case rules =>
      obtain ⟨j, hj⟩ := hthere "rules" (by decide)
      obtain ⟨rules, rfl, hrules⟩ := exists_of_isClean_rules (isClean_optional hrules hj)
      exact ⟨rules, hj, hrules⟩

end Check

end CrapsStrategy
