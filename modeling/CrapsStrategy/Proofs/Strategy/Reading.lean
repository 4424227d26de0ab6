import CrapsStrategy.Proofs.Json.Reader
import CrapsStrategy.Proofs.Strategy.Sized
import CrapsStrategy.Session.Replay

/-!
# `CrapsStrategy.Proofs.Strategy.Reading`: strategies that a text gives

`Strategy.read` reads a text as a document, checks the document and
decodes it. What is known of loading asks for a document with its
fields in order. A document that is read from a text has them so
(`Json.isOrdered_of_read?`), so of texts the same holds without it:

* `exists_read_iff`: a text gives a strategy exactly when it is a
  document that the check lets pass and that has no oversight.
* `fromSized_of_read`: what the strategy has for the sized bets of
  that document.
-/

set_option autoImplicit false

namespace CrapsStrategy.Strategy

/-- A text gives what the document that it is read as gives. -/
theorem read_eq_ok_iff {text : String} {strategy : Strategy} :
    read text = .ok strategy ↔
      ∃ document, Json.read? text = some document ∧ load document = .ok strategy := by
  unfold read
  cases Json.read? text with
  | none => simp
  | some document => cases hload : load document <;> simp [hload]

/-- The texts that give a strategy. The oversights are the only thing
that stands between a clean report and a strategy. -/
theorem exists_read_iff (text : String) :
    (∃ strategy, read text = .ok strategy) ↔
      ∃ document, Json.read? text = some document ∧ (check document).isClean = true ∧
        ¬ Oversight document := by
  simp only [read_eq_ok_iff, load_eq_ok_iff]
  constructor
  · rintro ⟨strategy, document, htext, hclean, hread⟩
    have hdecoded := isSome_of_isClean (Json.isOrdered_of_read? htext) hclean
    exact ⟨document, htext, hclean, hdecoded.1 (by rw [hread]; rfl)⟩
  · rintro ⟨document, htext, hclean, hnone⟩
    have hdecoded := isSome_of_isClean (Json.isOrdered_of_read? htext) hclean
    obtain ⟨strategy, hread⟩ := Option.isSome_iff_exists.1 (hdecoded.2 hnone)
    exact ⟨strategy, document, htext, hclean, hread⟩

/-- In a strategy that a text gives, every entry of the document has its
entry, under the same mode and the same bet. An object with an amount
in it, at any depth, is a sized bet if its amount and its odds are no
objects, and a group otherwise. -/
theorem fromSized_of_read {text : String} {strategy : Strategy} (h : read text = .ok strategy) :
    ∃ document, Json.read? text = some document ∧ ∀ mode bet entry,
      document.part? ["modes", mode, "template", bet] = some entry →
      ∃ template read, strategy.modes.get? mode = some template ∧
        template.get? bet = some read ∧
        ∀ path fields amount, entry.part? path = some (.object fields) →
          fields.lookup "amount" = some amount →
          ∃ part, read.part? path = some part ∧ part.FromSized fields := by
  obtain ⟨document, htext, hload⟩ := read_eq_ok_iff.1 h
  refine ⟨document, htext, fun mode bet entry hentry => ?_⟩
  obtain ⟨hshape, template, read, htemplate, hbet, hread⟩ :=
    exists_entry_of_load (Json.isOrdered_of_read? htext) hload hentry
  exact ⟨template, read, htemplate, hbet, fun path fields amount hpart hamount =>
    TemplateEntry.fromSized_of_part hshape hread hpart hamount⟩

end CrapsStrategy.Strategy
