import CrapsStrategy.Proofs.Session.Requests
import CrapsStrategy.Proofs.Strategy.RoundTrip

/-!
# `CrapsStrategy.Proofs.Session.Envelopes`: envelopes that are written and read

The document of an envelope has `null` for a bet and an amount that are
absent, and no field for the other things that are. All of it is read
back (`Envelope.read_toJson`), except for the value of a variable. There a
value that is nothing is written as `null`, which is read as no value,
and a double that is no number is written as nothing.

The amounts of a run are finite, so nothing but the value of a variable
can be lost there, and `Logged.read_requests` says when it is not.
-/

set_option autoImplicit false

namespace CrapsStrategy

namespace Json

/-- An optional field stands under its name if there is something to
write. -/
theorem lookup_optionalField {α : Type} (name key : String) (write : α → Json) (a : Option α) :
    (optionalField name write a).lookup key = if key = name then a.map write else none := by
  cases a with
  | none => exact (ite_self none).symm
  | some a => exact Entries.lookup_cons key name (write a) []

/-- An optional field is one field or none, so its order does not
matter. Documents are looked up from behind. -/
theorem reverse_optionalField {α : Type} (name : String) (write : α → Json) (a : Option α) :
    (optionalField name write a).reverse = optionalField name write a := by
  cases a <;> rfl

/-- A field that is `null` when absent is read back, if what is written
is never `null` itself. -/
theorem optional?_nullable {α : Type} {read : Json → Option α} {write : α → Json} {a : Option α}
    (h : ∀ b, a = some b → write b ≠ null ∧ read (write b) = some b) :
    optional? read (some (nullable write a)) = some a := by
  cases a with
  | none => rfl
  | some b =>
    obtain ⟨hnull, hread⟩ := h b rfl
    rw [nullable, Codec.optional?_of_ne_null hnull, hread, Option.map_some]

/-- A field that is left out when absent is read back under the same
condition. -/
theorem optional?_map {α : Type} {read : Json → Option α} {write : α → Json} {a : Option α}
    (h : ∀ b, a = some b → write b ≠ null ∧ read (write b) = some b) :
    optional? read (a.map write) = some a := by
  cases a with
  | none => rfl
  | some b => exact optional?_nullable (a := some b) h

end Json

/-- What is read of a value in an optional field: nothing if it was
written as `null`. -/
def Value.kept? (v : Value) : Option Value :=
  match v.kept with
  | .null => none
  | kept => some kept

/-- What was not written as `null` is read as it was kept. -/
theorem Value.kept?_of_ne_null {v : Value} (h : v.kept ≠ .null) : v.kept? = some v.kept := by
  unfold kept?
  split
  · rename_i hnull
    exact absurd hnull h
  · rfl

/-- A value in an optional field: what is left of it by writing, and
nothing where that is `null`. -/
theorem Value.optional?_toJson (v : Value) :
    Json.optional? (some ∘ ofJson) (some v.toJson) = some v.kept? := by
  have hread := ofJson_toJson v
  by_cases hnull : v.toJson = .null
  · rw [hnull, ofJson] at hread
    rw [hnull, kept?, ← hread]
    rfl
  · have hkept : v.kept ≠ .null := by
      rw [← hread]
      exact fun h => hnull (eq_null_of_ofJson h)
    rw [Codec.optional?_of_ne_null hnull, kept?_of_ne_null hkept, Function.comp_apply, hread]
    rfl

/-- A value is read back exactly if it is something and all its doubles
are numbers. -/
theorem Value.kept?_eq_some_iff (v : Value) :
    v.kept? = some v ↔ v ≠ .null ∧ v.isFinite = true := by
  rw [← kept_eq_self_iff]
  constructor
  · intro hkept
    have hsomething : v.kept ≠ .null := by
      intro hnull
      rw [kept?, hnull] at hkept
      cases hkept
    rw [kept?_of_ne_null hsomething] at hkept
    have hsame := Option.some.inj hkept
    rw [hsame] at hsomething
    exact ⟨hsomething, hsame⟩
  · rintro ⟨hsomething, hsame⟩
    rw [← hsame] at hsomething
    rw [kept?_of_ne_null hsomething, hsame]

/-- An action is read back from its name. -/
theorem ActionKind.ofName?_name (action : ActionKind) : ofName? action.name = some action := by
  cases action <;> decide

namespace Envelope

/-- A source is read back from its name. -/
theorem source?_name (source : Source) : source? source.name = some source := by
  cases source <;> rfl

/-- The fields of the document of an envelope. -/
theorem fields_toJson (e : Envelope) :
    e.toJson.field? "source" = some (.text e.source.name) ∧
    e.toJson.field? "id" = some (.text e.id) ∧
    e.toJson.field? "action" = some (.text e.action.name) ∧
    e.toJson.field? "bet_type" = some (Json.nullable .text e.bet) ∧
    e.toJson.field? "amount" =
      some (Json.nullable (fun x => (Value.float x).toJson) e.amount) ∧
    e.toJson.field? "notes" = some (.text e.notes) ∧
    e.toJson.field? "seq" = e.seq.map (fun n : Nat => .int n) ∧
    e.toJson.field? "var" = e.var.map .text ∧
    e.toJson.field? "value" = e.value.map Value.toJson ∧
    e.toJson.field? "working" = e.working.map .bool := by
  simp [toJson, Json.ofFields, Json.field?, Entries.lookup_ofList, List.lookup_append,
    Entries.lookup_cons, Json.reverse_optionalField, Json.lookup_optionalField]

variable {e : Envelope}

/-- The greatest number of a pass, which has 64 bits. -/
def maxSeq : Nat := 18446744073709551615

/-- An envelope is read back from its document, with what is left of its
value. -/
theorem read_toJson (hamount : ∀ x, e.amount = some x → x.isFinite = true)
    (hseq : ∀ n, e.seq = some n → n ≤ maxSeq) :
    ofJson? e.toJson = some { e with value := e.value.bind Value.kept? } := by
  obtain ⟨hsource, hid, haction, hbet, hamountField, hnotes, hseqField, hvar, hvalue, hworking⟩ :=
    e.fields_toJson
  -- Each field is read back from its own document; the value alone may be
  -- lost.
  have hbet' : Json.optional? Json.text? (some (Json.nullable .text e.bet)) = some e.bet :=
    Json.optional?_nullable fun _ _ => ⟨nofun, rfl⟩
  have hamount' : Json.optional? Json.number?
      (some (Json.nullable (fun x => (Value.float x).toJson) e.amount)) = some e.amount := by
    refine Json.optional?_nullable fun x hx => ?_
    rw [Value.toJson, if_pos (hamount x hx)]
    exact ⟨nofun, rfl⟩
  have hseq' : Json.optional? (Json.natUpTo? 18446744073709551615)
      (e.seq.map fun n : Nat => .int n) = some e.seq :=
    Json.optional?_map fun n hn => ⟨nofun, Codec.natUpTo?_int (hseq n hn)⟩
  have hvar' : Json.optional? Json.text? (e.var.map .text) = some e.var :=
    Json.optional?_map fun _ _ => ⟨nofun, rfl⟩
  have hvalue' : Json.optional? (some ∘ Value.ofJson) (e.value.map Value.toJson) =
      some (e.value.bind Value.kept?) := by
    cases e.value with
    | none => rfl
    | some v => exact v.optional?_toJson
  have hworking' : Json.optional? Json.bool? (e.working.map .bool) = some e.working :=
    Json.optional?_map fun _ _ => ⟨nofun, rfl⟩
  simp only [ofJson?, hsource, hid, haction, hbet, hamountField, hnotes, hseqField, hvar, hvalue,
    hworking, hbet', hamount', hseq', hvar', hvalue', hworking', Json.text?, Option.bind_eq_bind,
    Option.bind_some, source?_name, ActionKind.ofName?_name]
  rfl

/-- Nothing is lost exactly if the value, where there is one, is
something and all its doubles are numbers. -/
theorem kept_eq_self_iff (e : Envelope) : { e with value := e.value.bind Value.kept? } = e ↔
    ∀ v, e.value = some v → v ≠ .null ∧ v.isFinite = true := by
  have hvalue : { e with value := e.value.bind Value.kept? } = e ↔
      e.value.bind Value.kept? = e.value := by
    constructor
    · intro h
      exact congrArg Envelope.value h
    · intro h
      rw [h]
  rw [hvalue]
  cases e.value with
  | none => exact iff_of_true rfl nofun
  | some v =>
    rw [Option.bind_some, v.kept?_eq_some_iff]
    constructor
    · rintro hkept _ ⟨⟩
      exact hkept
    · intro h
      exact h v rfl

end Envelope

namespace Controller

variable {τ : Type} [BettingTable τ] {strategy : Strategy} {log : List (Turn τ)}
  {c : Controller τ}

/-- An envelope of a run is read back from its document, with what is
left of its value: wholly, exactly if the value is something and all its
doubles are numbers. That takes in all envelopes that set no variable. -/
theorem Logged.read_requests (h : Logged strategy log c) {t : Turn τ} (ht : t ∈ log)
    (hseq : t.pass.seq ≤ Envelope.maxSeq) {e : Envelope} (he : e ∈ t.pass.actions) :
    Envelope.ofJson? e.toJson = some { e with value := e.value.bind Value.kept? } ∧
      (Envelope.ofJson? e.toJson = some e ↔
        ∀ v, e.value = some v → v ≠ .null ∧ v.isFinite = true) ∧
      (e.action ≠ .setvar → Envelope.ofJson? e.toJson = some e) := by
  have hkeeps := (h.reachable_before ht).keeps
  have hwell := hkeeps.wellFormed_handle he
  have hstamp := (hkeeps.issues_handle he).seq
  have hread : Envelope.ofJson? e.toJson = some { e with value := e.value.bind Value.kept? } := by
    refine Envelope.read_toJson (fun x hx => (hwell.positive x hx).1) fun n hn => ?_
    rw [hstamp] at hn
    cases hn
    exact hseq
  have hwhole : Envelope.ofJson? e.toJson = some e ↔
      ∀ v, e.value = some v → v ≠ .null ∧ v.isFinite = true := by
    rw [hread, Option.some.injEq, e.kept_eq_self_iff]
  refine ⟨hread, hwhole, fun hother => hwhole.2 fun v hv => ?_⟩
  -- Only an envelope that sets a variable has a value.
  have hvalue := hwell.value.1 (by rw [hv]; rfl)
  exact absurd hvalue hother

/-- A strategy that notes a streak when a bet is settled, and forgets it
again. -/
def noteAndForget : Strategy :=
  { table := { bubble := false, level := 10, oddsPolicy := none }
    vars := .empty
    modes := .ofList [("Main", .empty)]
    rules := [{
      name := none, id := none, event := some "bet_resolved", guard := none
      steps := [.text "streak = [3, 7]", .text "streak = None"]
      thenStep := none, scope := .roll, cooldown := 0, once := false }] }

/-- The two envelopes of its first pass. A list is written as it is, and
what is read of the other has no value. -/
theorem exists_noteAndForget :
    ∃ c : Controller PaperTable, Logged noteAndForget [{ before := c, event := lineWon }]
        (c.handle lineWon).1 ∧
      ∃ noted forgotten, (c.handle lineWon).2.actions = [noted, forgotten] ∧
        noted.value.map Value.kind = some .list ∧ noted.value.all Value.isFinite = true ∧
        forgotten.value.map Value.kind = some .null ∧
        ((Envelope.ofJson? forgotten.toJson).any fun e => e.value.isNone) = true := by
  let seen := fun c : Controller PaperTable => (c.handle lineWon).2.actions.map fun e =>
    (e.value.map Value.kind, e.value.all Value.isFinite,
      (Envelope.ofJson? e.toJson).any fun e => e.value.isNone)
  have hseen : (Controller.start noteAndForget withLine).toOption.map seen =
      some [(some .list, true, false), (some .null, true, true)] := by
    decide +kernel
  obtain ⟨c, hstart, hc⟩ := exists_ok_of_toOption hseen
  obtain ⟨noted, rest, hactions, hnoted, hrest⟩ := List.map_eq_cons_iff.1 hc
  obtain ⟨forgotten, rfl, hforgotten⟩ := List.map_eq_singleton_iff.1 hrest
  simp only [Prod.mk.injEq] at hnoted hforgotten
  obtain ⟨hlist, hfinite, _⟩ := hnoted
  obtain ⟨hnull, _, hlost⟩ := hforgotten
  exact ⟨c, .handle [] c lineWon (.start withLine c hstart), noted, forgotten, hactions, hlist,
    hfinite, hnull, hlost⟩

/-- The envelope with the list is read back. -/
theorem read_requests_noteAndForget :
    ∃ (log : List (Turn PaperTable)) (c : Controller PaperTable), Logged noteAndForget log c ∧
      ∃ t ∈ log, t.pass.seq ≤ Envelope.maxSeq ∧ ∃ e ∈ t.pass.actions,
        e.value.map Value.kind = some .list ∧ Envelope.ofJson? e.toJson = some e := by
  obtain ⟨c, hlogged, noted, forgotten, hactions, hlist, hfinite, _⟩ := exists_noteAndForget
  have hfirst : ({ before := c, event := lineWon : Turn PaperTable }).pass.seq = 1 :=
    (List.cons.inj hlogged.seqs.2).1
  have hseq : ({ before := c, event := lineWon : Turn PaperTable }).pass.seq ≤ Envelope.maxSeq := by
    rw [hfirst]
    decide
  have hmem : noted ∈ ({ before := c, event := lineWon : Turn PaperTable }).pass.actions :=
    hactions ▸ List.mem_cons_self
  refine ⟨_, _, hlogged, _, List.mem_singleton_self _, hseq, noted, hmem, hlist, ?_⟩
  refine (hlogged.read_requests (List.mem_singleton_self _) hseq hmem).2.1.2 fun v hv => ?_
  rw [hv] at hlist hfinite
  refine ⟨?_, hfinite⟩
  rintro rfl
  cases hlist

/-- The one with nothing for its value is not. -/
theorem value_lost_noteAndForget :
    ∃ (log : List (Turn PaperTable)) (c : Controller PaperTable), Logged noteAndForget log c ∧
      ∃ t ∈ log, ∃ e ∈ t.pass.actions,
        e.value.map Value.kind = some .null ∧ Envelope.ofJson? e.toJson ≠ some e := by
  obtain ⟨c, hlogged, noted, forgotten, hactions, _, _, hnull, hlost⟩ := exists_noteAndForget
  have hmem : forgotten ∈ ({ before := c, event := lineWon : Turn PaperTable }).pass.actions :=
    hactions ▸ List.mem_cons_of_mem _ List.mem_cons_self
  refine ⟨_, _, hlogged, _, List.mem_singleton_self _, forgotten, hmem, hnull, fun hsame => ?_⟩
  rw [hsame, Option.any_some, Option.isNone_iff_eq_none] at hlost
  rw [hlost] at hnull
  cases hnull

end Controller

end CrapsStrategy
