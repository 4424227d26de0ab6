import CrapsStrategy.Proofs.Strategy.Check
import CrapsStrategy.Strategy.Load

/-!
# `CrapsStrategy.Proofs.Strategy.Decode`: documents that are decoded

Decoding a record reads its fields in order, and fails with the first
that fails. Whether it succeeds is therefore a conjunction, field by
field, which `isSome_bind` builds. There is one such lemma for each
record of a strategy document, and one for each way to read a field.
-/

set_option autoImplicit false

namespace CrapsStrategy

/-! ### Decoders that succeed -/

section Success

variable {α β : Type}

/-- A field is read, and then the rest, whose success does not depend on
what was read. -/
theorem isSome_bind {x : Option α} {f : α → Option β} {p : Prop}
    (h : ∀ a, (f a).isSome = true ↔ p) : (x >>= f).isSome = true ↔ x.isSome = true ∧ p := by
  cases x with
  | none => simp
  | some a =>
    show (f a).isSome = true ↔ _
    simp [h a]

/-- The last field decides on its own whether the rest is read. -/
theorem isSome_bind_pure {x : Option α} {f : α → β} :
    (x >>= fun a => pure (f a)).isSome = true ↔ x.isSome = true := by
  cases x <;> simp

/-- Reading items one by one succeeds if it does for each of them. -/
theorem isSome_mapM {read : α → Option β} {items : List α} :
    (items.mapM read).isSome = true ↔ ∀ item ∈ items, (read item).isSome = true := by
  induction items with
  | nil => simp
  | cons item items ih =>
    rw [List.mapM_cons, isSome_bind fun _ => isSome_bind_pure, ih, List.forall_mem_cons]

/-- What a list is mapped to comes from its elements. -/
theorem exists_of_mem_of_mapM {read : α → Option β} {items : List α} {results : List β}
    (h : items.mapM read = some results) {result : β} (hresult : result ∈ results) :
    ∃ item ∈ items, read item = some result := by
  induction items generalizing results with
  | nil =>
    cases h
    cases hresult
  | cons item items ih =>
    rw [List.mapM_cons] at h
    obtain ⟨first, hfirst, h⟩ := Option.bind_eq_some_iff.1 h
    obtain ⟨rest, hrest, h⟩ := Option.bind_eq_some_iff.1 h
    cases h
    rcases List.mem_cons.1 hresult with rfl | hlater
    · exact ⟨item, List.mem_cons_self, hfirst⟩
    · obtain ⟨other, hother, hread⟩ := ih hrest hlater
      exact ⟨other, List.mem_cons_of_mem _ hother, hread⟩

end Success

/-! ### Entries that are read under their names -/

namespace Decode

variable {α β : Type}

/-- Reads an entry, and keeps its name. -/
def named? (read : α → Option β) (entry : String × α) : Option (String × β) :=
  (read entry.2).map fun b => (entry.1, b)

/-- The entries that are read, in the order of those they are read
from. -/
theorem keys_of_mapM_named? {read : α → Option β} {fields : List (String × α)}
    {entries : List (String × β)} (h : fields.mapM (named? read) = some entries) :
    entries.map Prod.fst = fields.map Prod.fst := by
  induction fields generalizing entries with
  | nil =>
    cases h
    rfl
  | cons field fields ih =>
    rw [List.mapM_cons] at h
    obtain ⟨entry, hentry, h⟩ := Option.bind_eq_some_iff.1 h
    obtain ⟨rest, hrest, h⟩ := Option.bind_eq_some_iff.1 h
    obtain ⟨b, hb, rfl⟩ := Option.map_eq_some_iff.1 hentry
    cases h
    rw [List.map_cons, List.map_cons, ih hrest]

/-- A name looks up what is read from the field under it. -/
theorem lookup_of_mapM_named? {read : α → Option β} {fields : List (String × α)}
    {entries : List (String × β)} (h : fields.mapM (named? read) = some entries) (name : String) :
    entries.lookup name = (fields.lookup name).bind read := by
  induction fields generalizing entries with
  | nil =>
    cases h
    rfl
  | cons field fields ih =>
    rw [List.mapM_cons] at h
    obtain ⟨entry, hentry, h⟩ := Option.bind_eq_some_iff.1 h
    obtain ⟨rest, hrest, h⟩ := Option.bind_eq_some_iff.1 h
    obtain ⟨b, hb, rfl⟩ := Option.map_eq_some_iff.1 hentry
    cases h
    obtain ⟨key, a⟩ := field
    rw [Entries.lookup_cons, Entries.lookup_cons, ih hrest]
    split
    · exact hb.symm
    · rfl

/-- No field is left out. -/
theorem exists_lookup_of_mapM_named? {read : Json → Option β} {fields : List (String × Json)}
    {entries : List (String × β)} (h : fields.mapM (named? read) = some entries) {name : String}
    {field : Json} (hfield : fields.lookup name = some field) :
    ∃ b, read field = some b ∧ entries.lookup name = some b := by
  have hall := isSome_mapM.1 (Option.isSome_of_eq_some h) _ (Json.mem_of_lookup hfield)
  obtain ⟨entry, hentry⟩ := Option.isSome_iff_exists.1 hall
  obtain ⟨b, hb, _⟩ := Option.map_eq_some_iff.1 hentry
  exact ⟨b, hb, by rw [lookup_of_mapM_named? h, hfield, Option.bind_some, hb]⟩

/-- A map is decoded entry by entry, each under its name. -/
theorem map?_eq_bind (read : Json → Option β) (j : Json) :
    map? read j = j.object?.bind fun fields => (fields.mapM (named? read)).map KeyMap.ofList := by
  have hread : named? read = fun field : String × Json =>
      (read field.2).bind fun b => some (field.1, b) := by
    funext field
    exact Option.map_eq_bind
  unfold map?
  rw [hread]
  refine congrArg j.object?.bind (funext fun fields => ?_)
  exact Option.map_eq_bind.symm

/-- A map is read from an object. -/
theorem exists_of_map? {read : Json → Option β} {j : Json} {m : KeyMap β}
    (h : map? read j = some m) :
    ∃ fields entries, j = .object fields ∧ fields.mapM (named? read) = some entries ∧
      m = KeyMap.ofList entries := by
  rw [map?_eq_bind] at h
  obtain ⟨fields, hfields, h⟩ := Option.bind_eq_some_iff.1 h
  obtain ⟨entries, hentries, h⟩ := Option.map_eq_some_iff.1 h
  cases h
  exact ⟨fields, entries, Json.eq_object_of_object? hfields, hentries, rfl⟩

/-- What a map looks up is read from the field of that name. -/
theorem get?_of_map? {read : Json → Option β} {fields : List (String × Json)} {m : KeyMap β}
    (hascending : Entries.Ascending fields) (h : map? read (.object fields) = some m)
    {name : String} {field : Json} (hfield : fields.lookup name = some field) :
    ∃ b, read field = some b ∧ m.get? name = some b := by
  obtain ⟨_, entries, hfields, hentries, rfl⟩ := exists_of_map? h
  cases hfields
  have hsame : Entries.Ascending entries := by
    have hkeys := List.pairwise_map.2 hascending
    rw [← keys_of_mapM_named? hentries] at hkeys
    exact List.pairwise_map.1 hkeys
  rw [KeyMap.get?_ofList, hsame.lookup_reverse]
  exact exists_lookup_of_mapM_named? hentries hfield

end Decode

namespace Json

/-- A text, or null in its place. -/
def isNullableText : Json → Bool
  | .null => true
  | .text _ => true
  | _ => false

variable {α : Type}

/-- An optional field is decoded if it is absent, null or readable. -/
theorem isSome_optional? {read : Json → Option α} {field : Option Json} :
    (optional? read field).isSome = true ↔
      ∀ j, field = some j → j = .null ∨ (read j).isSome = true := by
  cases field with
  | none => simp [optional?]
  | some j => cases j <;> simp [optional?]

end Json

namespace Decode

variable {α : Type}

/-- A field with a fallback is decoded if it is absent or readable. Null
is not absent here. -/
theorem isSome_fieldOr? {read : Json → Option α} {fallback : α} {field : Option Json} :
    (fieldOr? read fallback field).isSome = true ↔
      ∀ j, field = some j → (read j).isSome = true := by
  cases field <;> simp [fieldOr?]

/-- An optional text is decoded unless it is something else. -/
theorem isSome_text? {field : Option Json} :
    (text? field).isSome = true ↔ ∀ j, field = some j → j.isNullableText = true := by
  unfold text?
  rw [Json.isSome_optional?]
  refine forall_congr' fun j => imp_congr_right fun _ => ?_
  cases j <;> simp [Json.isNullableText, Json.text?]

/-- Any document is a value. -/
@[simp]
theorem isSome_value? (field : Option Json) : (value? field).isSome = true := by
  unfold value?
  rw [Json.isSome_optional?]
  exact fun _ _ => .inr rfl

/-- A list is decoded if all its items are. -/
theorem isSome_list? {read : Json → Option α} {items : List Json} :
    (list? read (.array items)).isSome = true ↔ ∀ item ∈ items, (read item).isSome = true :=
  isSome_mapM

/-- A map is decoded if all its fields are. -/
theorem isSome_map? {read : Json → Option α} {fields : List (String × Json)} :
    (map? read (.object fields)).isSome = true ↔
      ∀ field ∈ fields, (read field.2).isSome = true := by
  have hmapped : map? read (.object fields) = (fields.mapM (named? read)).map KeyMap.ofList :=
    map?_eq_bind read (.object fields)
  rw [hmapped, Option.isSome_map, isSome_mapM]
  simp only [named?, Option.isSome_map]

/-- An object gives variables, whatever its fields are, and nothing
else does. -/
theorem isSome_variables? {j : Json} :
    (variables? j).isSome = true ↔ ∃ fields, j = .object fields := by
  cases j with
  | object fields =>
    unfold variables?
    rw [isSome_map?]
    exact ⟨fun _ => ⟨fields, rfl⟩, fun _ _ _ => rfl⟩
  | _ => simp [variables?, map?, Json.object?]

end Decode

open Decode

/-! ### Records -/

namespace StepObject

/-- A field with two names is decoded if not both of them are there, and
the one that is has a text or null. -/
theorem isSome_aliased? {first second : String} {fields : List (String × Json)} :
    (aliased? first second fields).isSome = true ↔
      ¬ ((fields.lookup first).isSome = true ∧ (fields.lookup second).isSome = true) ∧
        ∀ name ∈ [first, second], ∀ field, fields.lookup name = some field →
          field.isNullableText = true := by
  unfold aliased?
  cases hfirst : fields.lookup first with
  | none =>
    cases hsecond : fields.lookup second with
    | none => simp [isSome_text?, hfirst, hsecond]
    | some field => simp [isSome_text?, hfirst, hsecond]
  | some field =>
    cases hsecond : fields.lookup second with
    | none => simp [isSome_text?, hfirst, hsecond]
    | some other => simp

/-- A step with arguments is decoded if its two aliased fields and its
three texts are. Amount and value may be anything. -/
theorem isSome_ofJson? {fields : List (String × Json)} :
    (ofJson? (.object fields)).isSome = true ↔
      (aliased? "action" "verb" fields).isSome = true ∧
      (aliased? "bet_type" "bet" fields).isSome = true ∧
      (text? (fields.lookup "notes")).isSome = true ∧
      (text? (fields.lookup "mode")).isSome = true ∧
      (text? (fields.lookup "var")).isSome = true := by
  have hfields := isSome_bind (x := aliased? "action" "verb" fields) fun action =>
    isSome_bind (x := aliased? "bet_type" "bet" fields) fun bet =>
    isSome_bind (x := value? (fields.lookup "amount")) fun amount =>
    isSome_bind (x := text? (fields.lookup "notes")) fun notes =>
    isSome_bind (x := text? (fields.lookup "mode")) fun mode =>
    isSome_bind (x := text? (fields.lookup "var")) fun var =>
    isSome_bind_pure (x := value? (fields.lookup "value")) (f := fun value =>
      ({ action, bet, amount, notes, mode, var, value } : StepObject))
  refine Iff.trans hfields ?_
  simp

end StepObject

namespace ThenStep

/-- A short form that names its verb is decoded if its arguments are an
object. -/
theorem isSome_ofJson? {step : List (String × Json)} {verb : String}
    (hverb : step.lookup "verb" = some (.text verb)) :
    (ofJson? (.object step)).isSome = true ↔
      ∀ arguments, step.lookup "args" = some arguments → ∃ fields, arguments = .object fields := by
  have hdecoded : ofJson? (.object step) =
      (fieldOr? variables? .empty (step.lookup "args") >>= fun arguments =>
        pure { verb, arguments }) := by
    show (step.lookup "verb" >>= fun field => field.text? >>= fun verb => _) = _
    rw [hverb]
    rfl
  rw [hdecoded, isSome_bind_pure, isSome_fieldOr?]
  exact forall₂_congr fun _ _ => isSome_variables?

end ThenStep

namespace RuleSection

/-- A rule is decoded if its nine fields are. -/
theorem isSome_ofJson? {fields : List (String × Json)} :
    (ofJson? (.object fields)).isSome = true ↔
      (text? (fields.lookup "name")).isSome = true ∧
      (text? (fields.lookup "id")).isSome = true ∧
      (Json.optional? trigger? (fields.lookup "on")).isSome = true ∧
      (text? (fields.lookup "when")).isSome = true ∧
      (fieldOr? (list? StepText.ofJson?) [] (fields.lookup "do")).isSome = true ∧
      (Json.optional? ThenStep.ofJson? (fields.lookup "then")).isSome = true ∧
      (fieldOr? RuleScope.ofJson? .roll (fields.lookup "scope")).isSome = true ∧
      (fieldOr? (Json.natUpTo? maxCooldown) 0 (fields.lookup "cooldown")).isSome = true ∧
      (fieldOr? Json.bool? false (fields.lookup "once")).isSome = true :=
  isSome_bind fun name => isSome_bind fun id => isSome_bind fun event =>
    isSome_bind fun guard => isSome_bind fun steps => isSome_bind fun thenStep =>
    isSome_bind fun scope => isSome_bind fun cooldown => isSome_bind_pure (f := fun once =>
      ({ name, id, event, guard, steps, thenStep, scope, cooldown, once } : RuleSection))

/-- What the rule is triggered by is read. -/
theorem trigger?_object {on : List (String × Json)} {event : String}
    (hevent : on.lookup "event" = some (.text event)) : trigger? (.object on) = some event := by
  show (on.lookup "event" >>= fun field => field.text?) = some event
  rw [hevent]
  rfl

/-- A cooldown is decoded if it fits 32 bits. -/
theorem isSome_natUpTo? (n : Nat) :
    (Json.natUpTo? maxCooldown (.int n)).isSome = true ↔ n ≤ maxCooldown := by
  show (Option.map Int.toNat (if 0 ≤ (n : Int) ∧ (n : Int) ≤ maxCooldown then some (n : Int)
    else none)).isSome = true ↔ _
  by_cases hn : n ≤ maxCooldown
  · rw [if_pos (by omega)]
    simp [hn]
  · rw [if_neg (by omega)]
    simp [hn]

end RuleSection

/-! ### Templates -/

namespace TemplateEntry

/-- The fields of a group are decoded one by one, under their names. -/
theorem ofFields?_eq_mapM (fields : List (String × Json)) :
    ofFields? fields = fields.mapM (named? ofJson?) := by
  induction fields with
  | nil => rfl
  | cons field fields ih =>
    obtain ⟨name, j⟩ := field
    rw [ofFields?, List.mapM_cons, ih, named?]
    cases ofJson? j <;> rfl

/-- A group is decoded if all its fields are. -/
theorem isSome_ofFields? {fields : List (String × Json)} :
    (ofFields? fields).isSome = true ↔ ∀ field ∈ fields, (ofJson? field.2).isSome = true := by
  rw [ofFields?_eq_mapM, isSome_mapM]
  simp only [named?, Option.isSome_map]

/-- An object is read as a sized bet or else as a group. -/
theorem sized_or_nested {fields : List (String × Json)} {entry : TemplateEntry}
    (h : ofJson? (.object fields) = some entry) :
    (∃ bet, SizedBet.ofFields? fields = some bet ∧ entry = .sized bet) ∨
      SizedBet.ofFields? fields = none ∧
        ∃ entries, ofFields? fields = some entries ∧ entry = .nested entries := by
  rw [ofJson?] at h
  split at h
  · rename_i bet hbet
    cases h
    exact .inl ⟨bet, hbet, rfl⟩
  · rename_i hnone
    obtain ⟨entries, hentries, rfl⟩ := Option.map_eq_some_iff.1 h
    exact .inr ⟨hnone, entries, hentries, rfl⟩

/-- An object is decoded as an entry when it is a sized bet or all its
fields are entries. -/
theorem isSome_ofJson?_object {fields : List (String × Json)} :
    (ofJson? (.object fields)).isSome = true ↔
      (SizedBet.ofFields? fields).isSome = true ∨
        ∀ field ∈ fields, (ofJson? field.2).isSome = true := by
  rw [ofJson?]
  cases SizedBet.ofFields? fields with
  | some bet => simp
  | none =>
    dsimp only
    rw [Option.isSome_map, isSome_ofFields?]
    simp

end TemplateEntry

/-- A sized bet is decoded when its parts are and it has no others. -/
theorem SizedBet.isSome_ofFields? {fields : List (String × Json)} {amount : Json}
    (hamount : fields.lookup "amount" = some amount)
    (hknown : ∀ field ∈ fields, field.1 ∈ fieldNames) :
    (ofFields? fields).isSome = true ↔ (Amount.ofJson? amount).isSome = true ∧
      (Json.optional? Json.bool? (fields.lookup "working")).isSome = true ∧
      (Json.optional? Amount.ofJson? (fields.lookup "odds")).isSome = true := by
  have hall : (fields.all fun field => fieldNames.contains field.1) = true := by
    simpa using hknown
  unfold ofFields?
  rw [hamount]
  simp only [hall, if_true]
  exact isSome_bind fun _ => isSome_bind fun _ => isSome_bind_pure

/-- So a sized bet has an amount, its parts can be decoded, and it has no
others. -/
theorem SizedBet.isSome_ofFields?_iff {fields : List (String × Json)} :
    (ofFields? fields).isSome = true ↔
      (∃ amount, fields.lookup "amount" = some amount ∧ (Amount.ofJson? amount).isSome = true) ∧
      (Json.optional? Json.bool? (fields.lookup "working")).isSome = true ∧
      (Json.optional? Amount.ofJson? (fields.lookup "odds")).isSome = true ∧
      ∀ field ∈ fields, field.1 ∈ fieldNames := by
  constructor
  · intro h
    obtain ⟨bet, hbet⟩ := Option.isSome_iff_exists.1 h
    simp only [ofFields?, Option.bind_eq_bind, Option.bind_eq_some_iff] at hbet
    obtain ⟨amount, hamount, _, _, _, _, _, _, hbet⟩ := hbet
    split at hbet
    · rename_i hall
      have hknown : ∀ field ∈ fields, field.1 ∈ fieldNames := by simpa using hall
      obtain ⟨hread, hworking, hodds⟩ := (isSome_ofFields? hamount hknown).1 h
      exact ⟨⟨amount, hamount, hread⟩, hworking, hodds, hknown⟩
    · cases hbet
  · rintro ⟨⟨amount, hamount, hread⟩, hworking, hodds, hknown⟩
    exact (isSome_ofFields? hamount hknown).2 ⟨hread, hworking, hodds⟩

/-- A template is a map of entries. -/
theorem Template.ofJson?_eq_map? (j : Json) : ofJson? j = map? TemplateEntry.ofJson? j := by
  rw [map?_eq_bind]
  refine congrArg j.object?.bind (funext fun fields => ?_)
  rw [← TemplateEntry.ofFields?_eq_mapM]
  exact Option.map_eq_bind.symm

/-- A template is decoded when its entries are. -/
theorem Template.isSome_ofJson? {bets : List (String × Json)} :
    (ofJson? (.object bets)).isSome = true ↔
      ∀ field ∈ bets, (TemplateEntry.ofJson? field.2).isSome = true := by
  rw [ofJson?_eq_map?, isSome_map?]

end CrapsStrategy
