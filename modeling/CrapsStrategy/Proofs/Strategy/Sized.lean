import CrapsStrategy.Proofs.Strategy.Oversight
import CrapsStrategy.Proofs.Strategy.Start

/-!
# `CrapsStrategy.Proofs.Strategy.Sized`: what becomes of sized bets

The check takes an entry with an `amount` for a sized bet. Decoding
tries that first and falls back on a group of entries. A path of names
leads to the same place in a document and in the template that is read
from it (`Json.part?`, `TemplateEntry.part?`), so what an entry becomes
can be said wherever it stands.

The two agree unless the amount or the odds of the bet are objects
themselves: the check takes them for entries, and the decoder can only
take the whole for a group (`Strategy.fromSized_of_load`).
-/

set_option autoImplicit false

namespace CrapsStrategy

/-! ### Paths -/

/-- The part of a document that some field names lead to. -/
def Json.part? (j : Json) : List String → Option Json
  | [] => some j
  | name :: path => (j.field? name).bind fun field => field.part? path

/-- A path may be followed in two stretches. -/
theorem Json.part?_append (j : Json) (before after : List String) :
    j.part? (before ++ after) = (j.part? before).bind fun part => part.part? after := by
  induction before generalizing j with
  | nil => rfl
  | cons name before ih => simp only [List.cons_append, part?, ih, Option.bind_assoc]

/-- Only an object has parts that are objects. -/
theorem Json.part?_ne_object {j : Json} (h : j.object? = none) (path : List String)
    (fields : List (String × Json)) : j.part? path ≠ some (.object fields) := by
  intro hpart
  cases path with
  | nil =>
    cases hpart
    cases h
  | cons name path =>
    obtain ⟨field, hfield, _⟩ := Option.bind_eq_some_iff.1 hpart
    obtain ⟨_, rfl, _⟩ := Json.eq_object_of_field? hfield
    cases h

namespace TemplateEntry

/-- An entry of a group. -/
def member? (name : String) : TemplateEntry → Option TemplateEntry
  | nested entries => entries.lookup name
  | _ => none

/-- Whether an entry is a group. -/
def isNested : TemplateEntry → Bool
  | nested _ => true
  | _ => false

/-- The part of an entry that some names lead to. -/
def part? (entry : TemplateEntry) : List String → Option TemplateEntry
  | [] => some entry
  | name :: path => (entry.member? name).bind fun inner => inner.part? path

end TemplateEntry

/-- The part of a template that some names lead to. -/
def Template.part? (template : Template) (bet : String) (path : List String) :
    Option TemplateEntry :=
  (template.get? bet).bind fun entry => entry.part? path

/-! ### Entries that are read -/

/-- The amount that a number or a text stands for. -/
inductive Amount.Reads : Json → Amount → Prop
  | int (i : Int) : Amount.Reads (.int i) (.number (.ofInt i))
  | float (x : Binary64) : Amount.Reads (.float x) (.number x)
  | text (s : String) : Amount.Reads (.text s) (.formula s)

/-- An amount is a number or a text, with nothing in between. -/
theorem Amount.reads_of_ofJson? {j : Json} {a : Amount} (h : ofJson? j = some a) : Reads j a := by
  cases j with
  | int i =>
    cases h
    exact .int i
  | float x =>
    cases h
    exact .float x
  | text s =>
    cases h
    exact .text s
  | _ => cases h

namespace SizedBet

/-- A bet has the amount, the odds and the flag of an object. -/
structure Reads (fields : List (String × Json)) (bet : SizedBet) : Prop where
  amount : ∃ j, fields.lookup "amount" = some j ∧ Amount.Reads j bet.amount
  odds : Option.Rel Amount.Reads (fields.lookup "odds") bet.odds
  working : Option.Rel (fun j b => j = .bool b) (fields.lookup "working") bet.working

/-- Whether the amount and the odds are no objects themselves. -/
def IsPlain (fields : List (String × Json)) : Prop :=
  ∀ name ∈ ["amount", "odds"], ∀ field, fields.lookup name = some field → field.object? = none

end SizedBet

/-- What becomes of an object with an amount. -/
structure TemplateEntry.FromSized (fields : List (String × Json)) (entry : TemplateEntry) :
    Prop where
  plain : SizedBet.IsPlain fields → ∃ bet, entry = .sized bet ∧ bet.Reads fields
  other : ¬ SizedBet.IsPlain fields → ∃ entries, entry = .nested entries

/-- An optional field that is not null is what is read of it. -/
theorem Json.rel_of_optional? {α : Type} {read : Json → Option α} {r : Json → α → Prop}
    (hr : ∀ j a, read j = some a → r j a) {field : Option Json} {a : Option α}
    (h : optional? read field = some a) (hnull : field ≠ some .null) : Option.Rel r field a := by
  cases field with
  | none =>
    cases h
    exact .none
  | some j =>
    cases j with
    | null => exact absurd rfl hnull
    | _ =>
      obtain ⟨b, hb, rfl⟩ := Option.map_eq_some_iff.1 h
      exact .some (hr _ b hb)

/-- The fields of a sized bet are no objects. -/
theorem SizedBet.object?_eq_none_of_ofFields? {fields : List (String × Json)} {bet : SizedBet}
    (h : ofFields? fields = some bet) {name : String} {field : Json}
    (hfield : fields.lookup name = some field) : field.object? = none := by
  obtain ⟨⟨amount, hamount, hread⟩, hworking, hodds, hknown⟩ :=
    isSome_ofFields?_iff.1 (Option.isSome_of_eq_some h)
  have hname := hknown _ (Json.mem_of_lookup hfield)
  simp only [fieldNames, List.mem_cons, List.not_mem_nil, or_false] at hname
  rcases hname with rfl | rfl | rfl
  · cases hamount.symm.trans hfield
    cases field with
    | object _ => cases hread
    | _ => rfl
  · rw [hfield] at hworking
    cases field with
    | object _ => cases hworking
    | _ => rfl
  · rw [hfield] at hodds
    cases field with
    | object _ => cases hodds
    | _ => rfl

/-- A sized bet that is decoded has what its fields say. A field that is
null counts as absent, which the hypotheses exclude. -/
theorem SizedBet.reads_of_ofFields? {fields : List (String × Json)} {bet : SizedBet}
    (h : ofFields? fields = some bet)
    (hodds : fields.lookup "odds" ≠ some .null) (hworking : fields.lookup "working" ≠ some .null) :
    Reads fields bet := by
  unfold ofFields? at h
  simp only [Option.bind_eq_bind, Option.bind_eq_some_iff] at h
  obtain ⟨j, hj, amount, hamount, working, hflag, odds, hread, h⟩ := h
  split at h
  · cases h
    constructor
    case amount => exact ⟨j, hj, Amount.reads_of_ofJson? hamount⟩
    case odds => exact Json.rel_of_optional? (fun _ _ => Amount.reads_of_ofJson?) hread hodds
    case working => exact Json.rel_of_optional? (fun _ _ => Json.eq_bool_of_bool?) hflag hworking
  · cases h

namespace TemplateEntry

variable {fields : List (String × Json)}

/-- An object with an amount that the check lets pass is a sized bet if
it is plain, and a group if it is not. -/
theorem fromSized_of_shape {groups : Bool} {amount : Json} {entry : TemplateEntry}
    (h : Check.EntryShape groups (.object fields)) (hamount : fields.lookup "amount" = some amount)
    (hread : ofJson? (.object fields) = some entry) : FromSized fields entry := by
  cases h with
  | group _ hnone _ =>
    rw [hnone] at hamount
    cases hamount
  | sized _ _ amount hamount hshape hodds hworking hknown =>
    have hplain := SizedBet.isSome_of_shape hamount hshape hodds hworking hknown
    rcases sized_or_nested hread with ⟨bet, hbet, rfl⟩ | ⟨hnone, entries, _, rfl⟩
    · rw [hbet] at hplain
      refine ⟨fun _ => ⟨bet, rfl, SizedBet.reads_of_ofFields? hbet ?_ ?_⟩,
        fun hother => absurd (hplain.1 rfl) hother⟩
      · intro hnull
        cases hodds _ hnull
      · intro hnull
        obtain ⟨b, hb⟩ := hworking _ hnull
        cases hb
    · rw [hnone] at hplain
      exact ⟨fun hyes => (nomatch hplain.2 hyes), fun _ => ⟨entries, rfl⟩⟩

/-- The fields of a group that the check lets pass are entries or the
flag, which is none. -/
theorem shape_of_field {groups : Bool} (h : Check.EntryShape groups (.object fields))
    {name : String} {field : Json} (hfield : fields.lookup name = some field) :
    Check.EntryShape false field ∨ ∃ b, field = .bool b := by
  cases h with
  | group _ _ hentries => exact .inl (hentries _ (Json.mem_of_lookup hfield))
  | sized _ _ amount hamount hshape hodds hworking hknown =>
    have hname := hknown _ (Json.mem_of_lookup hfield)
    simp only [SizedBet.fieldNames, List.mem_cons, List.not_mem_nil, or_false] at hname
    rcases hname with rfl | rfl | rfl
    · rw [hamount] at hfield
      cases hfield
      exact .inl hshape
    · exact .inr (hworking field hfield)
    · exact .inl (hodds field hfield)

/-- Every part of an entry that the check lets pass is decoded as a
sized bet or as a group by its fields. -/
theorem fromSized_of_part {groups : Bool} {j amount : Json} {entry : TemplateEntry}
    (h : Check.EntryShape groups j) (hread : ofJson? j = some entry) {path : List String}
    (hpart : j.part? path = some (.object fields))
    (hamount : fields.lookup "amount" = some amount) :
    ∃ part, entry.part? path = some part ∧ FromSized fields part := by
  induction path generalizing groups j entry with
  | nil =>
    cases hpart
    exact ⟨entry, rfl, fromSized_of_shape h hamount hread⟩
  | cons name path ih =>
    obtain ⟨field, hfield, hrest⟩ := Option.bind_eq_some_iff.1 hpart
    obtain ⟨outer, rfl, hlookup⟩ := Json.eq_object_of_field? hfield
    rcases sized_or_nested hread with ⟨bet, hbet, rfl⟩ | ⟨_, entries, hentries, rfl⟩
    · -- Nothing below the fields of a sized bet is an object.
      have hobject := SizedBet.object?_eq_none_of_ofFields? hbet hlookup
      exact absurd hrest (Json.part?_ne_object hobject path fields)
    · rw [ofFields?_eq_mapM] at hentries
      obtain ⟨inner, hinner, hmember⟩ := Decode.exists_lookup_of_mapM_named? hentries hlookup
      rcases shape_of_field h hlookup with hshape | ⟨b, rfl⟩
      · obtain ⟨part, hpart, hfrom⟩ := ih hshape hinner hrest
        exact ⟨part, Option.bind_eq_some_iff.2 ⟨inner, hmember, hpart⟩, hfrom⟩
      · cases hinner

end TemplateEntry

namespace Strategy

/-- An entry of a document that is loaded is an entry of the strategy,
under the same mode and the same bet. The fields have to be in order,
as a map looks names up by their order and a document by their place. -/
theorem exists_entry_of_load {document : Json} {strategy : Strategy}
    (hordered : document.isOrdered = true) (hload : load document = .ok strategy)
    {mode bet : String} {entry : Json}
    (hpart : document.part? ["modes", mode, "template", bet] = some entry) :
    Check.EntryShape true entry ∧ ∃ template read, strategy.modes.get? mode = some template ∧
      template.get? bet = some read ∧ TemplateEntry.ofJson? entry = some read := by
  obtain ⟨⟨modes, hmodes, _, hshapes, hread⟩, _⟩ := sections_of_load hload
  simp only [Json.part?, Option.bind_eq_some_iff, Option.some.injEq, exists_eq_right] at hpart
  obtain ⟨_, hfield, field, hmode, _, htemplate, hentry⟩ := hpart
  cases hfield.symm.trans hmodes
  obtain ⟨modeFields, rfl, hshape⟩ := hshapes _ (Json.mem_of_lookup hmode)
  obtain ⟨bets, rfl, hentries⟩ := hshape _ htemplate
  have hmodesOrdered := Json.isOrdered_of_field? hordered hmodes
  have hmodeOrdered := Json.isOrdered_of_field? hmodesOrdered hmode
  have hbetsOrdered := Json.isOrdered_of_field? hmodeOrdered htemplate
  obtain ⟨template, hmodeRead, htemplateRead⟩ :=
    Decode.get?_of_map? (Json.isOrdered_object.1 hmodesOrdered).1 hread hmode
  have hdecoded : mode? (.object modeFields) =
      Decode.fieldOr? Template.ofJson? .empty (modeFields.lookup "template") := rfl
  rw [hdecoded, show modeFields.lookup "template" = some (.object bets) from htemplate,
    Decode.fieldOr?, Template.ofJson?_eq_map?] at hmodeRead
  obtain ⟨read, hentryRead, hbet⟩ :=
    Decode.get?_of_map? (Json.isOrdered_object.1 hbetsOrdered).1 hmodeRead hentry
  exact ⟨hentries _ (Json.mem_of_lookup hentry), template, read, htemplateRead, hbet, hentryRead⟩

/-- In a strategy that is loaded, an object with an amount is a sized
bet if its amount and its odds are no objects, and a group otherwise. -/
theorem fromSized_of_load {document : Json} {strategy : Strategy}
    (hordered : document.isOrdered = true) (hload : load document = .ok strategy)
    {mode bet : String} {path : List String} {fields : List (String × Json)} {amount : Json}
    (hpart : document.part? ("modes" :: mode :: "template" :: bet :: path) = some (.object fields))
    (hamount : fields.lookup "amount" = some amount) :
    ∃ template part, strategy.modes.get? mode = some template ∧
      template.part? bet path = some part ∧ part.FromSized fields := by
  -- Four names lead to an entry, and the rest of the path from there to the object.
  change document.part? (["modes", mode, "template", bet] ++ path) = _ at hpart
  rw [Json.part?_append, Option.bind_eq_some_iff] at hpart
  obtain ⟨entry, hentry, hpart⟩ := hpart
  obtain ⟨hshape, template, read, htemplate, hbet, hread⟩ :=
    exists_entry_of_load hordered hload hentry
  obtain ⟨part, hpart, hfrom⟩ := TemplateEntry.fromSized_of_part hshape hread hpart hamount
  exact ⟨template, part, htemplate, Option.bind_eq_some_iff.2 ⟨read, hbet, hpart⟩, hfrom⟩

/-- A document with two bets, one of them in a group and the other with
an object for its odds. -/
def wrapped : Json :=
  .object [
    ("modes", .object [("Main", .object [("template", .object [
      ("pass_line", .object [("amount", .int 10), ("odds", .object [("amount", .int 20)])]),
      ("place", .object [("6", .object [("amount", .int 12), ("working", .bool true)])])])])]),
    ("rules", .array []),
    ("table", .object [("bubble", .bool false), ("level", .int 10)]),
    ("variables", .object [("units", .int 5)])]

/-- The strategy that is loaded from the document has a group where the
odds are an object. -/
theorem nested_wrapped :
    wrapped.isOrdered = true ∧
      wrapped.part? ["modes", "Main", "template", "pass_line"] =
        some (.object [("amount", .int 10), ("odds", .object [("amount", .int 20)])]) ∧
      ∃ strategy template entries, load wrapped = .ok strategy ∧
        strategy.modes.get? "Main" = some template ∧
        template.part? "pass_line" [] = some (.nested entries) := by
  refine ⟨by decide +kernel, rfl, ?_⟩
  have hread : (load wrapped).toOption.map (fun strategy =>
      (strategy.modes.get? "Main").any fun template =>
        (template.part? "pass_line" []).any TemplateEntry.isNested) = some true := by
    decide +kernel
  obtain ⟨strategy, hload, hread⟩ := exists_ok_of_toOption hread
  obtain ⟨template, htemplate, hread⟩ := (Option.any_eq_true _ _).1 hread
  obtain ⟨part, hpart, hnested⟩ := (Option.any_eq_true _ _).1 hread
  cases part with
  | nested entries => exact ⟨strategy, template, entries, hload, htemplate, hpart⟩
  | _ => cases hnested

/-- The other object with an amount is decoded as a sized bet. -/
theorem sized_wrapped :
    wrapped.isOrdered = true ∧ ∃ strategy template bet, load wrapped = .ok strategy ∧
      strategy.modes.get? "Main" = some template ∧
      template.part? "place" ["6"] = some (.sized bet) ∧
      bet.Reads [("amount", .int 12), ("working", .bool true)] := by
  have hordered : wrapped.isOrdered = true := by decide +kernel
  have hread : (load wrapped).toOption.map (fun _ => ()) = some () := by decide +kernel
  obtain ⟨strategy, hload, _⟩ := exists_ok_of_toOption hread
  have hplace : wrapped.part? ["modes", "Main", "template", "place", "6"] =
      some (.object [("amount", .int 12), ("working", .bool true)]) := rfl
  obtain ⟨template, part, htemplate, hpart, hfrom⟩ := fromSized_of_load hordered hload hplace rfl
  obtain ⟨bet, rfl, hbet⟩ := hfrom.plain (by
    simp [SizedBet.IsPlain, Entries.lookup_cons, Json.object?])
  exact ⟨hordered, strategy, template, bet, hload, htemplate, hpart, hbet⟩

end Strategy

end CrapsStrategy
