import CrapsStrategy.Proofs.Json.Reader
import CrapsStrategy.Proofs.Strategy.Decode
import CrapsStrategy.Proofs.Value.Document
import CrapsStrategy.Strategy.Encode

/-!
# `CrapsStrategy.Proofs.Strategy.RoundTrip`: strategies that are written and read

A document says more than the strategy that it is decoded into: a field
may be missing or null, stand under another name or hold a whole number
in place of a double, and a record may be a list. The strategy is
written in one way. `Codec.Lawful` says of a reader and a writer that
nothing of what was read is lost by that. It holds of plain fields, is
kept by lists, maps and optional fields, and so holds of each record in
turn, up to whole strategies (`Strategy.ofJson?_toJson`).

An entry of a template has no name for its alternative, and is a sized
bet when its fields are those of one. `TemplateEntry.AreSized` tells
this from the entries that the fields are read as. As a group is written
entry by entry, what is written of it is no sized bet either.
-/

set_option autoImplicit false

namespace CrapsStrategy

open Decode
open Json (nullable)

/-! ### Readers and writers -/

namespace Codec

/-- What is read from a document is read again from what is written of
it. -/
def Lawful {α : Type} (read : Json → Option α) (write : α → Json) : Prop :=
  ∀ j, j.numbersFit = true → ∀ a, read j = some a → read (write a) = some a

/-- So it is for a field, which may be missing, and is written all the
same. -/
def LawfulField {α : Type} (read : Option Json → Option α) (write : α → Json) : Prop :=
  ∀ field : Option Json, (∀ j, field = some j → j.numbersFit = true) → ∀ a, read field = some a →
    read (some (write a)) = some a

section Combinators

variable {α : Type} {read : Json → Option α} {write : α → Json}

/-- A field with a fallback is lawful if the fallback is read again. -/
theorem Lawful.fieldOr? (h : Lawful read write) {fallback : α}
    (hfallback : read (write fallback) = some fallback) :
    LawfulField (fieldOr? read fallback) write := by
  intro field hfit a hread
  cases field with
  | none =>
    cases hread
    exact hfallback
  | some j => exact h j (hfit j rfl) a hread

/-- An optional field that is there and not null is simply read. -/
theorem optional?_of_ne_null {j : Json} (h : j ≠ .null) :
    Json.optional? read (some j) = (read j).map some := by
  cases j with
  | null => exact absurd rfl h
  | _ => rfl

/-- An optional field is lawful when nothing but null is written as
null. -/
theorem Lawful.optional? (h : Lawful read write)
    (hnull : ∀ j, j.numbersFit = true → j ≠ .null → ∀ a, read j = some a → write a ≠ .null) :
    LawfulField (Json.optional? read) (nullable write) := by
  intro field hfit a hread
  by_cases hthere : ∃ j, field = some j ∧ j ≠ .null
  · obtain ⟨j, rfl, hj⟩ := hthere
    rw [optional?_of_ne_null hj] at hread
    obtain ⟨b, hb, rfl⟩ := Option.map_eq_some_iff.1 hread
    have hagain := h j (hfit j rfl) b hb
    rw [nullable, optional?_of_ne_null (hnull j (hfit j rfl) hj b hb), hagain, Option.map_some]
  · have habsent : Json.optional? read field = some none := by
      cases field with
      | none => rfl
      | some j =>
        have hj : j = .null := Classical.byContradiction fun hj => hthere ⟨j, rfl, hj⟩
        rw [hj]
        rfl
    rw [habsent] at hread
    cases hread
    rfl

/-- What is not read from null is not written as null either. -/
theorem Lawful.optional?_of_null (h : Lawful read write) (hnull : read .null = none) :
    LawfulField (Json.optional? read) (nullable write) := by
  refine h.optional? fun j hfit _ a hread hwritten => ?_
  have hagain := h j hfit a hread
  rw [hwritten, hnull] at hagain
  cases hagain

/-- A list that is read again item by item is read again. -/
theorem mapM_map_of_forall {γ : Type} {read : γ → Option α} {write : α → γ} {as : List α}
    (h : ∀ a ∈ as, read (write a) = some a) : (as.map write).mapM read = some as := by
  induction as with
  | nil => rfl
  | cons a as ih =>
    obtain ⟨ha, has⟩ := List.forall_mem_cons.1 h
    rw [List.map_cons, List.mapM_cons, ha, ih has]
    rfl

/-- Lists are lawful with their items. -/
theorem Lawful.list? (h : Lawful read write) :
    Lawful (list? read) fun as => .array (as.map write) := by
  intro j hfit as hread
  obtain ⟨items, hitems, hread⟩ := Option.bind_eq_some_iff.1 hread
  obtain rfl := Json.eq_array_of_array? hitems
  refine mapM_map_of_forall fun a ha => ?_
  obtain ⟨item, hitem, hread⟩ := exists_of_mem_of_mapM hread ha
  exact h item (Json.numbersFit_array.1 hfit item hitem) a hread

/-- Entries that are read each are read again. -/
theorem mapM_named?_of_forall {entries : List (String × α)}
    (h : ∀ entry ∈ entries, read (write entry.2) = some entry.2) :
    (entries.map fun entry => (entry.1, write entry.2)).mapM (named? read) = some entries := by
  refine mapM_map_of_forall fun entry hentry => ?_
  rw [named?, h entry hentry]
  rfl

/-- What was read is read again from what is written, entry by entry. -/
theorem read_write_of_mapM_named? {fields : List (String × Json)} {entries : List (String × α)}
    (h : ∀ field ∈ fields, ∀ a, read field.2 = some a → read (write a) = some a)
    (hread : fields.mapM (named? read) = some entries) :
    ∀ entry ∈ entries, read (write entry.2) = some entry.2 := by
  intro entry hentry
  obtain ⟨field, hfield, hread⟩ := exists_of_mem_of_mapM hread hentry
  obtain ⟨a, ha, rfl⟩ := Option.map_eq_some_iff.1 hread
  exact h field hfield a ha

/-- Maps are lawful with their values, and keep their order. -/
theorem Lawful.map? (h : Lawful read write) : Lawful (map? read) (Encode.map write) := by
  intro j hfit m hread
  obtain ⟨fields, entries, rfl, hentries, rfl⟩ := exists_of_map? hread
  have hall := read_write_of_mapM_named?
    (fun field hfield => h field.2 (Json.numbersFit_object.1 hfit field hfield)) hentries
  have hagain := mapM_named?_of_forall fun entry hentry =>
    hall entry (Entries.mem_of_mem_ofList hentry)
  rw [map?_eq_bind]
  refine (congrArg (Option.map KeyMap.ofList) hagain).trans ?_
  exact congrArg some (KeyMap.ofList_entries (KeyMap.ofList entries))

end Combinators

/-! ### Plain fields -/

/-- Texts are written as they are. -/
theorem lawful_text : Lawful Json.text? .text := by
  intro j _ s h
  rfl

/-- Truth values are written as they are. -/
theorem lawful_bool : Lawful Json.bool? .bool := by
  intro j _ b h
  rfl

/-- A finite double is written as it is. -/
theorem number_eq_float {x : Binary64} (h : x.isFinite = true) : Encode.number x = .float x := by
  rw [Encode.number, Value.toJson, if_pos h]

/-- A number is written as the double that it was read as. It is finite,
as the numbers of the document fit. -/
theorem lawful_number : Lawful Json.number? Encode.number := by
  intro j hfit x h
  rw [number_eq_float (Json.isFinite_of_number? hfit h)]
  rfl

/-- A count within its limit is read back. -/
theorem natUpTo?_int {limit n : Nat} (h : n ≤ limit) :
    Json.natUpTo? limit (.int n) = some n := by
  rw [Json.natUpTo?, Json.intWithin?, if_pos (by omega), Option.map_some, Int.toNat_natCast]

/-- A count that was read is within its limit. -/
theorem lawful_count (limit : Nat) : Lawful (Json.natUpTo? limit) fun n => .int n := by
  intro j _ n h
  refine natUpTo?_int ?_
  obtain ⟨i, hi, rfl⟩ := Option.map_eq_some_iff.1 h
  cases j with
  | int k =>
    rw [Json.intWithin?] at hi
    split at hi
    · cases hi
      omega
    · cases hi
  | _ => cases hi

/-- A value that was read from a document loses nothing when it is
written. -/
theorem lawful_value : Lawful (fun j => some (Value.ofJson j)) Value.toJson := by
  intro j hfit v h
  cases h
  exact congrArg some (Value.ofJson_toJson_ofJson j hfit)

/-- An optional text is written as null when it is missing. -/
theorem lawfulField_text : LawfulField text? (nullable .text) :=
  lawful_text.optional?_of_null rfl

/-- An optional value is written as null only when there is none. -/
theorem lawfulField_value : LawfulField value? (nullable Value.toJson) := by
  refine lawful_value.optional? fun j hfit hj v h => ?_
  cases h
  exact Value.toJson_ofJson_ne_null hfit hj

/-- Variables are a map of values. -/
theorem lawful_variables : Lawful variables? (Encode.map Value.toJson) :=
  lawful_value.map?

end Codec

open Codec

/-! ### Records -/

/-- The fields of a record are parts of its document. -/
theorem Decode.numbersFit_of_record? {names : List String} {j : Json}
    {fields : List (String × Json)} (hfit : j.numbersFit = true)
    (h : record? names j = some fields) (name : String) (field : Json)
    (hfield : fields.lookup name = some field) : field.numbersFit = true := by
  have hmem := Json.mem_of_lookup hfield
  cases j with
  | object parts =>
    cases h
    exact Json.numbersFit_object.1 hfit _ hmem
  | array items =>
    unfold record? at h
    dsimp only at h
    split at h
    · cases h
      exact Json.numbersFit_array.1 hfit _ (List.of_mem_zip hmem).2
    · cases h
  | _ => cases h

/-- A record that is written is read by its fields, whatever its names
are. -/
theorem Decode.record?_ofFields (names : List String) (pairs : List (String × Json)) :
    record? names (.ofFields pairs) = some (Entries.ofList pairs) := rfl

namespace TableSection

/-- The table of a strategy is read again: flag, level and policy. -/
theorem lawful : Lawful ofJson? toJson := by
  intro j hfit table hread
  simp only [ofJson?, Option.bind_eq_bind, Option.bind_eq_some_iff] at hread
  obtain ⟨fields, hfields, bubble, hbubble, level, hlevel, policy, hpolicy, hread⟩ := hread
  cases hread
  have hfit := numbersFit_of_record? hfit hfields
  have hbubble := lawful_bool.fieldOr? rfl _ (hfit "bubble") bubble hbubble
  have hdefault : (Encode.number defaultLevel).number? = some defaultLevel := by
    rw [number_eq_float (by decide +kernel)]
    rfl
  have hlevel := lawful_number.fieldOr? hdefault _ (hfit "level") level hlevel
  have hpolicy := lawfulField_value _ (hfit "odds_policy") policy hpolicy
  simp [ofJson?, toJson, record?_ofFields, Entries.lookup_ofList, Entries.lookup_cons, hbubble,
    hlevel, hpolicy]

end TableSection

namespace StepObject

/-- A text that is read under one of two names is read again under the
first. -/
theorem text?_of_aliased? {first second : String} {fields : List (String × Json)}
    {a : Option String} (h : aliased? first second fields = some a) :
    text? (some (nullable .text a)) = some a := by
  cases a <;> rfl

/-- A step with arguments is read again. Its fields are written under
the first of their names. -/
theorem lawful : Lawful ofJson? toJson := by
  intro j hfit step hread
  simp only [ofJson?, Option.bind_eq_bind, Option.bind_eq_some_iff] at hread
  obtain ⟨fields, hfields, action, haction, bet, hbet, amount, hamount, notes, hnotes, mode, hmode,
    var, hvar, value, hvalue, hread⟩ := hread
  cases hread
  have hfit := numbersFit_of_record? hfit hfields
  have haction := text?_of_aliased? haction
  have hbet := text?_of_aliased? hbet
  have hamount := lawfulField_value _ (hfit "amount") amount hamount
  have hnotes := lawfulField_text _ (hfit "notes") notes hnotes
  have hmode := lawfulField_text _ (hfit "mode") mode hmode
  have hvar := lawfulField_text _ (hfit "var") var hvar
  have hvalue := lawfulField_value _ (hfit "value") value hvalue
  simp [ofJson?, toJson, record?_ofFields, Entries.lookup_ofList, aliased?, Entries.lookup_cons,
    haction, hbet, hamount, hnotes, hmode, hvar, hvalue]

end StepObject

namespace StepText

/-- What is no text is a step with arguments. -/
theorem ofJson?_of_text?_eq_none {j : Json} (h : j.text? = none) :
    ofJson? j = (StepObject.ofJson? j).map object := by
  cases j with
  | text s => cases h
  | _ => rfl

/-- A step is read again, be it a text or written with arguments. -/
theorem lawful : Lawful ofJson? toJson := by
  intro j hfit step hread
  cases htext : j.text? with
  | some s =>
    obtain rfl := Json.eq_text_of_text? htext
    cases hread
    rfl
  | none =>
    rw [ofJson?_of_text?_eq_none htext] at hread
    obtain ⟨written, hwritten, rfl⟩ := Option.map_eq_some_iff.1 hread
    rw [toJson, ofJson?_of_text?_eq_none rfl, StepObject.lawful j hfit written hwritten]
    rfl

end StepText

namespace ThenStep

/-- The short form of a step is read again. -/
theorem lawful : Lawful ofJson? toJson := by
  intro j hfit step hread
  simp only [ofJson?, Option.bind_eq_bind, Option.bind_eq_some_iff] at hread
  obtain ⟨fields, hfields, verbField, hfield, verb, hverb, arguments, harguments, hread⟩ := hread
  cases hread
  have hfit := numbersFit_of_record? hfit hfields
  have hverb := lawful_text _ (hfit "verb" _ hfield) verb hverb
  have harguments := lawful_variables.fieldOr? rfl _ (hfit "args") arguments harguments
  simp [ofJson?, toJson, record?_ofFields, Entries.lookup_ofList, Entries.lookup_cons, hverb,
    harguments]

end ThenStep

namespace RuleSection

/-- What a rule is triggered by is written as an object with the event. -/
theorem lawful_trigger :
    Lawful trigger? fun event => .ofFields [("event", .text event)] := by
  intro j _ event _
  rfl

/-- The names of scopes are read back. -/
theorem lawful_scope : Lawful RuleScope.ofJson? fun scope => .text scope.name := by
  intro j _ scope _
  cases scope <;> rfl

/-- A rule is read again, field by field. -/
theorem lawful : Lawful ofJson? toJson := by
  intro j hfit rule hread
  simp only [ofJson?, Option.bind_eq_bind, Option.bind_eq_some_iff] at hread
  obtain ⟨fields, hfields, name, hname, id, hid, event, hevent, guard, hguard, steps, hsteps,
    thenStep, hthen, scope, hscope, cooldown, hcooldown, once, honce, hread⟩ := hread
  cases hread
  have hfit := numbersFit_of_record? hfit hfields
  have hname := lawfulField_text _ (hfit "name") name hname
  have hid := lawfulField_text _ (hfit "id") id hid
  have hevent := (lawful_trigger.optional?_of_null rfl) _ (hfit "on") event hevent
  have hguard := lawfulField_text _ (hfit "when") guard hguard
  have hsteps := StepText.lawful.list?.fieldOr? rfl _ (hfit "do") steps hsteps
  have hthen := (ThenStep.lawful.optional?_of_null rfl) _ (hfit "then") thenStep hthen
  have hscope := lawful_scope.fieldOr? rfl _ (hfit "scope") scope hscope
  have hcooldown := (lawful_count maxCooldown).fieldOr? rfl _ (hfit "cooldown") cooldown hcooldown
  have honce := lawful_bool.fieldOr? rfl _ (hfit "once") once honce
  simp [ofJson?, toJson, record?_ofFields, Entries.lookup_ofList, Entries.lookup_cons, hname, hid,
    hevent, hguard, hsteps, hthen, hscope, hcooldown, honce]

end RuleSection

/-! ### Templates -/

/-- An amount is read again. A whole number is written as a double. -/
theorem Amount.lawful : Lawful ofJson? toJson := by
  intro j hfit a hread
  cases j with
  | text s =>
    cases hread
    rfl
  | int i =>
    cases hread
    rw [toJson, number_eq_float (Json.isFinite_of_isWord hfit)]
    rfl
  | float x =>
    cases hread
    rw [toJson, number_eq_float hfit]
    rfl
  | _ => cases hread

/-- The fields that are written of a sized bet are read as the bet. -/
theorem SizedBet.ofFields?_of_toJson {fields : List (String × Json)} {bet : SizedBet}
    (hfit : ∀ name field, fields.lookup name = some field → field.numbersFit = true)
    (hread : ofFields? fields = some bet) :
    ∃ written, bet.toJson = .object written ∧ ofFields? written = some bet := by
  simp only [ofFields?, Option.bind_eq_bind, Option.bind_eq_some_iff] at hread
  obtain ⟨j, hj, amount, hamount, working, hworking, odds, hodds, hread⟩ := hread
  split at hread
  case isFalse => cases hread
  cases hread
  refine ⟨_, rfl, ?_⟩
  have hamount := Amount.lawful j (hfit "amount" j hj) amount hamount
  have hworking := (lawful_bool.optional?_of_null rfl) _ (hfit "working") working hworking
  have hodds := (Amount.lawful.optional?_of_null rfl) _ (hfit "odds") odds hodds
  -- No field is written but those of a sized bet.
  have hknown : ((Entries.ofList [("amount", amount.toJson), ("working", nullable .bool working),
      ("odds", nullable Amount.toJson odds)]).all fun field =>
        fieldNames.contains field.1) = true := by
    rw [List.all_eq_true]
    intro field hfield
    have hpair := Entries.mem_of_mem_ofList hfield
    simp only [List.mem_cons, List.not_mem_nil, or_false] at hpair
    rcases hpair with rfl | rfl | rfl <;> rfl
  rw [ofFields?, hknown]
  simp [Entries.lookup_ofList, Entries.lookup_cons, hamount, hworking, hodds]

namespace TemplateEntry

/-- A group is written entry by entry, each under its name. -/
theorem toFields_eq_map (entries : List (String × TemplateEntry)) :
    toFields entries = entries.map fun entry => (entry.1, entry.2.toJson) := by
  induction entries with
  | nil => rfl
  | cons entry entries ih =>
    rw [toFields, ih]
    rfl

/-- An amount is read as an amount, and nothing else is. -/
theorem isSome_amount_iff {j : Json} {entry : TemplateEntry} (h : ofJson? j = some entry) :
    (Amount.ofJson? j).isSome = true ↔ ∃ a, entry = .amount a := by
  cases j with
  | int i | float x | text s =>
    cases h
    exact iff_of_true rfl ⟨_, rfl⟩
  | object fields =>
    refine iff_of_false (fun hsome => nomatch hsome) ?_
    rintro ⟨a, rfl⟩
    rcases sized_or_nested h with ⟨_, _, hsized⟩ | ⟨_, _, _, hnested⟩
    · cases hsized
    · cases hnested
  | array values =>
    refine iff_of_false (fun hsome => nomatch hsome) ?_
    rintro ⟨a, rfl⟩
    rw [ofJson?] at h
    split at h
    · obtain ⟨_, _, hsized⟩ := Option.map_eq_some_iff.1 h
      cases hsized
    · cases h
  | null | bool b => cases h

/-- An entry is neither null nor a flag. -/
theorem ne_null_of_ofJson? {j : Json} {entry : TemplateEntry} (h : ofJson? j = some entry) :
    j ≠ .null ∧ j.bool? = none := by
  cases j with
  | null | bool b => cases h
  | _ => exact ⟨nofun, rfl⟩

/-- Whether the entries of a group would be those of a sized bet. -/
structure AreSized (entries : List (String × TemplateEntry)) : Prop where
  amount : ∃ a, entries.lookup "amount" = some (.amount a)
  working : entries.lookup "working" = none
  odds : ∀ entry, entries.lookup "odds" = some entry → ∃ a, entry = .amount a
  known : ∀ name ∈ entries.map Prod.fst, name ∈ SizedBet.fieldNames

section Sized

variable {fields : List (String × Json)} {entries : List (String × TemplateEntry)}

/-- A name that no field has is not among the entries. -/
theorem lookup_eq_none_of_mapM (h : fields.mapM (named? ofJson?) = some entries) {name : String}
    (hfield : fields.lookup name = none) : entries.lookup name = none := by
  rw [lookup_of_mapM_named? h, hfield, Option.bind_none]

/-- Whether the field of a name is an amount is told by its entry. -/
theorem exists_amount_iff (h : fields.mapM (named? ofJson?) = some entries) (name : String) :
    (∃ j, fields.lookup name = some j ∧ (Amount.ofJson? j).isSome = true) ↔
      ∃ a, entries.lookup name = some (.amount a) := by
  cases hfield : fields.lookup name with
  | none => simp [lookup_eq_none_of_mapM h hfield]
  | some j =>
    obtain ⟨entry, hread, hentry⟩ := exists_lookup_of_mapM_named? h hfield
    rw [hentry]
    simp [isSome_amount_iff hread]

/-- An entry is never a flag, so a field of a sized bet that would have
to be one is missing. -/
theorem isSome_flag_iff (h : fields.mapM (named? ofJson?) = some entries) (name : String) :
    (Json.optional? Json.bool? (fields.lookup name)).isSome = true ↔
      entries.lookup name = none := by
  cases hfield : fields.lookup name with
  | none => simp [lookup_eq_none_of_mapM h hfield, Json.optional?]
  | some j =>
    obtain ⟨entry, hread, hentry⟩ := exists_lookup_of_mapM_named? h hfield
    obtain ⟨hnull, hbool⟩ := ne_null_of_ofJson? hread
    rw [hentry, optional?_of_ne_null hnull, hbool]
    simp

/-- Whether the field of a name would do for odds is told by its entry. -/
theorem isSome_odds_iff (h : fields.mapM (named? ofJson?) = some entries) (name : String) :
    (Json.optional? Amount.ofJson? (fields.lookup name)).isSome = true ↔
      ∀ entry, entries.lookup name = some entry → ∃ a, entry = .amount a := by
  cases hfield : fields.lookup name with
  | none => simp [lookup_eq_none_of_mapM h hfield, Json.optional?]
  | some j =>
    obtain ⟨entry, hread, hentry⟩ := exists_lookup_of_mapM_named? h hfield
    rw [hentry, optional?_of_ne_null (ne_null_of_ofJson? hread).1, Option.isSome_map,
      isSome_amount_iff hread]
    simp

/-- Fields that are read as entries are told by these to be those of a
sized bet. -/
theorem isSome_sized_iff (h : fields.mapM (named? ofJson?) = some entries) :
    (SizedBet.ofFields? fields).isSome = true ↔ AreSized entries := by
  have hknown : (∀ field ∈ fields, field.1 ∈ SizedBet.fieldNames) ↔
      ∀ name ∈ entries.map Prod.fst, name ∈ SizedBet.fieldNames := by
    rw [keys_of_mapM_named? h, List.forall_mem_map]
  rw [SizedBet.isSome_ofFields?_iff, exists_amount_iff h, isSome_flag_iff h, isSome_odds_iff h,
    hknown]
  exact ⟨fun ⟨hamount, hworking, hodds, hknown⟩ => ⟨hamount, hworking, hodds, hknown⟩,
    fun hsized => ⟨hsized.amount, hsized.working, hsized.odds, hsized.known⟩⟩

end Sized

/-- An entry is read again. A group that is written is no sized bet,
because its entries tell that and they are read again by induction. -/
theorem lawful : Lawful ofJson? toJson := by
  intro j
  induction j using Json.object_induction with
  | object fields ih =>
    intro hfit entry hread
    have hparts := Json.numbersFit_object.1 hfit
    rcases sized_or_nested hread with ⟨bet, hbet, rfl⟩ | ⟨hnone, entries, hentries, rfl⟩
    · obtain ⟨written, hwritten, hagain⟩ := SizedBet.ofFields?_of_toJson
        (fun name field hfield => hparts _ (Json.mem_of_lookup hfield)) hbet
      rw [toJson, hwritten, ofJson?, hagain]
    · rw [ofFields?_eq_mapM] at hentries
      have hall := read_write_of_mapM_named?
        (fun field hfield => ih field hfield (hparts field hfield)) hentries
      have hagain := mapM_named?_of_forall hall
      rw [← toFields_eq_map] at hagain
      -- What is written is no sized bet, as the entries are the same.
      have hgroup : SizedBet.ofFields? (toFields entries) = none := by
        rw [← Option.not_isSome_iff_eq_none, isSome_sized_iff hagain, ← isSome_sized_iff hentries,
          hnone]
        simp
      rw [toJson, ofJson?, hgroup]
      dsimp only
      rw [ofFields?_eq_mapM, hagain]
      rfl
  | other j hj =>
    intro hfit entry hread
    cases j with
    | int i =>
      cases hread
      rw [toJson, Amount.toJson, number_eq_float (Json.isFinite_of_isWord hfit), ofJson?]
    | float x =>
      cases hread
      rw [toJson, Amount.toJson, number_eq_float hfit, ofJson?]
    | text s =>
      cases hread
      rfl
    | array values =>
      rw [ofJson?] at hread
      split at hread
      · obtain ⟨bet, hbet, rfl⟩ := Option.map_eq_some_iff.1 hread
        obtain ⟨written, hwritten, hagain⟩ := SizedBet.ofFields?_of_toJson
          (fun name field hfield => Json.numbersFit_array.1 hfit field
            (List.of_mem_zip (Json.mem_of_lookup hfield)).2) hbet
        rw [toJson, hwritten, ofJson?, hagain]
      · cases hread
    | object fields => cases hj
    | _ => cases hread

end TemplateEntry

/-- A template is a map of entries. -/
theorem Template.lawful : Lawful ofJson? (Encode.map TemplateEntry.toJson) := by
  intro j hfit template hread
  rw [ofJson?_eq_map?] at hread ⊢
  exact TemplateEntry.lawful.map? j hfit template hread

/-! ### Strategies -/

namespace Strategy

/-- A mode is written as an object with its template. -/
theorem lawful_mode : Lawful mode? modeToJson := by
  intro j hfit template hread
  simp only [mode?, Option.bind_eq_bind, Option.bind_eq_some_iff] at hread
  obtain ⟨fields, hfields, hread⟩ := hread
  have hfit := numbersFit_of_record? hfit hfields
  have hagain := Template.lawful.fieldOr? rfl _ (hfit "template") template hread
  simp [mode?, modeToJson, record?_ofFields, Entries.lookup_ofList, hagain]

/-- A strategy that is read from a document is read again from the
document that it is written as. -/
theorem lawful : Lawful ofJson? toJson := by
  intro j hfit strategy hread
  simp only [ofJson?, Option.bind_eq_bind, Option.bind_eq_some_iff] at hread
  obtain ⟨fields, hfields, tableField, htableField, table, htable, vars, hvars, modesField,
    hmodesField, modes, hmodes, rules, hrules, hread⟩ := hread
  cases hread
  have hfit := numbersFit_of_record? hfit hfields
  have htable := TableSection.lawful _ (hfit "table" _ htableField) table htable
  have hvars := lawful_variables.fieldOr? rfl _ (hfit "variables") vars hvars
  have hmodes := lawful_mode.map? _ (hfit "modes" _ hmodesField) modes hmodes
  have hrules := RuleSection.lawful.list?.fieldOr? rfl _ (hfit "rules") rules hrules
  simp [ofJson?, toJson, record?_ofFields, Entries.lookup_ofList, Entries.lookup_cons, htable,
    hvars, hmodes, hrules]

/-- A strategy that a document gives survives being written and read. -/
theorem ofJson?_toJson {document : Json} {strategy : Strategy} (hfit : document.numbersFit = true)
    (hread : ofJson? document = some strategy) : ofJson? strategy.toJson = some strategy :=
  lawful document hfit strategy hread

/-- A strategy that is read from a text is read again from the document
that is written of it. -/
theorem ofJson?_toJson_of_read? {text : String} {document : Json} {strategy : Strategy}
    (htext : Json.read? text = some document) (hread : ofJson? document = some strategy) :
    ofJson? strategy.toJson = some strategy :=
  lawful document (Json.numbersFit_of_read? htext) strategy hread

/-- A document with a group that has an amount, with a whole number for a
level, and with a rule that has nulls. -/
def layered : Json :=
  .object [
    ("modes", .object [("Main", .object [("template", .object [
      ("pass_line", .object [("amount", .int 10), ("odds", .object [("amount", .text "units")])]),
      ("place", .object [("6", .object [("amount", .int 12), ("working", .bool true)])])])])]),
    ("rules", .array [.object [
      ("cooldown", .int 2),
      ("do", .array [.text "clear place_6", .object [("amount", .null), ("verb", .text "press")]]),
      ("name", .null), ("on", .object [("event", .text "roll")]), ("scope", .text "hand")]]),
    ("table", .object [("level", .int 15), ("odds_policy", .text "3-4-5x")]),
    ("variables", .object [("streak", .array [.int 1, .null]),
      ("units", .int 18446744073709551615)])]

/-- The strategy that is read from it survives as well. -/
theorem ofJson?_toJson_layered :
    layered.numbersFit = true ∧ ∃ strategy, ofJson? layered = some strategy ∧
      ofJson? strategy.toJson = some strategy := by
  have hfit : layered.numbersFit = true := by decide +kernel
  have hsome : (ofJson? layered).isSome = true := by decide +kernel
  obtain ⟨strategy, hread⟩ := Option.isSome_iff_exists.1 hsome
  exact ⟨hfit, strategy, hread, ofJson?_toJson hfit hread⟩

end Strategy

end CrapsStrategy
