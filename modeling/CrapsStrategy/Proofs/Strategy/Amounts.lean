import CrapsStrategy.Proofs.Script.Runtime
import CrapsStrategy.Proofs.Script.Source
import CrapsStrategy.Proofs.Strategy.Sized

/-!
# `CrapsStrategy.Proofs.Strategy.Amounts`: amount texts that pass the check

The check asks of an amount text that it compiles, which statements do
as well, and rendering asks for the number of a single expression. So
what becomes of an amount text depends on what it compiles to
(`Formula.runs_number`, `Formula.number_of_statements`): a single
expression fails on its names and its computations only, and anything
else has no number in any scope.

`Strategy.number_of_isClean` says this of every text in the templates
of a document that passes.
-/

set_option autoImplicit false

namespace CrapsStrategy

/-! ### Numbers of texts -/

namespace Formula

variable {text : String} {script : Script}

/-- The number of a safe expression fails as the expression does, or on
a value that is no number. -/
theorem runs_number (h : Script.compile text = .ok script) {e : Expr}
    (he : script.expression? = some e) (scope : Scope) :
    Runs e.Mentions (number text scope) := by
  obtain ⟨_, _, _, hcheck⟩ := Script.compile_eq_ok h
  have hvalue : value text scope = e.eval scope := by
    rw [value_of_compile h, Script.value, he]
  rw [number, hvalue]
  have hsafe := Script.safe_of_contains hcheck (Script.contains_of_expression? he)
  refine FaultsIn.bind (hsafe.runs_eval scope) ?_
  intro v _
  split
  · exact .pure _
  · exact FaultsIn.error_iff.2 id

/-- Statements have no number. -/
theorem number_of_statements (h : Script.compile text = .ok script)
    (hnone : script.expression? = none) (scope : Scope) :
    number text scope = .error (.syntaxAt .start .statementsForExpression) := by
  rw [number, value_of_compile h, Script.value, hnone]
  rfl

end Formula

/-! ### Texts of templates -/

/-- A text that stands anywhere in an entry without problems compiles. -/
theorem Check.EntryShape.compiles_of_part {groups : Bool} {j : Json} (h : EntryShape groups j)
    {path : List String} {text : String} (hpart : j.part? path = some (.text text)) :
    ∃ script, Script.compile text = .ok script := by
  induction path generalizing groups j with
  | nil =>
    cases hpart
    cases h with
    | text _ _ script hscript => exact ⟨script, hscript⟩
  | cons name path ih =>
    obtain ⟨field, hfield, hrest⟩ := Option.bind_eq_some_iff.1 hpart
    obtain ⟨fields, rfl, hlookup⟩ := Json.eq_object_of_field? hfield
    rcases TemplateEntry.shape_of_field h hlookup with hshape | ⟨b, rfl⟩
    · exact ih hshape hrest
    · -- The flag of a bet is no text and has no parts.
      cases path <;> cases hrest

namespace Strategy

/-- A text in the templates of a document that passes the check. -/
theorem compiles_of_isClean {document : Json} (h : (check document).isClean = true)
    {mode bet text : String} {path : List String}
    (hpart : document.part? ("modes" :: mode :: "template" :: bet :: path) = some (.text text)) :
    ∃ script, Script.compile text = .ok script := by
  obtain ⟨_, rfl, hshape⟩ := Check.DocumentShape.of_isClean h
  obtain ⟨modes, hmodes, _, hshapes⟩ := hshape.modes
  simp only [Json.part?, Option.bind_eq_some_iff] at hpart
  obtain ⟨_, hfield, field, hmode, _, htemplate, entry, hentry, hpart⟩ := hpart
  cases hfield.symm.trans hmodes
  obtain ⟨modeFields, rfl, hbets⟩ := hshapes _ (Json.mem_of_lookup hmode)
  obtain ⟨bets, rfl, hentries⟩ := hbets _ htemplate
  exact (hentries _ (Json.mem_of_lookup hentry)).compiles_of_part hpart

/-- An amount text of a document that passes the check compiles. If it
is a single expression, then in no scope does its number fail on the
text: only a name of it has no value, or a computation has no result.
If it is not, then it has no number in any scope. -/
theorem number_of_isClean {document : Json} (h : (check document).isClean = true)
    {mode bet text : String} {path : List String}
    (hpart : document.part? ("modes" :: mode :: "template" :: bet :: path) = some (.text text)) :
    ∃ script, Script.compile text = .ok script ∧
      (∀ e, script.expression? = some e → ∀ scope fault,
        Formula.number text scope = .error fault → fault.Runtime e.Mentions) ∧
      (script.expression? = none → ∀ scope,
        Formula.number text scope = .error (.syntaxAt .start .statementsForExpression)) := by
  obtain ⟨script, hscript⟩ := compiles_of_isClean h hpart
  refine ⟨script, hscript, fun e he scope => ?_, fun hnone scope => ?_⟩
  · exact Formula.runs_number hscript he scope
  · exact Formula.number_of_statements hscript hnone scope

/-- A document with an assignment for an amount, and with an expression
deeper in its template. -/
def resized : Json :=
  .object [
    ("modes", .object [("Main", .object [("template", .object [
      ("pass_line", .text "units = 15"),
      ("place", .object [("6", .object [("amount", .text "max(units, 10) * 2")])])])])]),
    ("rules", .array []),
    ("table", .object []),
    ("variables", .object [("units", .int 5)])]

/-- The validator finds nothing: the text compiles, and no scope is
asked. -/
theorem isClean_resized : (check resized).isClean = true := by
  decide +kernel

/-- The document passes, and the assignment fails on its text. -/
theorem statements_resized :
    (check resized).isClean = true ∧
      resized.part? ["modes", "Main", "template", "pass_line"] = some (.text "units = 15") ∧
      ∀ scope, Formula.number "units = 15" scope =
        .error (.syntaxAt .start .statementsForExpression) := by
  have hcompiles : (Script.compile "units = 15").toOption.map
      (fun script => script.expression?.isNone) = some true := by
    decide +kernel
  obtain ⟨script, hscript, hnone⟩ := exists_ok_of_toOption hcompiles
  rw [Option.isNone_iff_eq_none] at hnone
  exact ⟨isClean_resized, rfl, Formula.number_of_statements hscript hnone⟩

/-- The expression fails on its name, where that has no value. -/
theorem number_resized :
    let fault := Fault.unknownVariable "units"
    (check resized).isClean = true ∧
      resized.part? ["modes", "Main", "template", "place", "6", "amount"] =
        some (.text "max(units, 10) * 2") ∧
      Formula.number "max(units, 10) * 2" (.ofVariables .empty) = .error fault ∧
      ∃ script e, Script.compile "max(units, 10) * 2" = .ok script ∧
        script.expression? = some e ∧ fault.Runtime e.Mentions := by
  intro fault
  have hpart : resized.part? ["modes", "Main", "template", "place", "6", "amount"] =
      some (.text "max(units, 10) * 2") := rfl
  have hnumber : Formula.number "max(units, 10) * 2" (.ofVariables .empty) = .error fault := by
    with_unfolding_all rfl
  have hcompiles : (Script.compile "max(units, 10) * 2").toOption.map
      (fun script => script.expression?.isSome) = some true := by
    decide +kernel
  obtain ⟨script, hscript, hsome⟩ := exists_ok_of_toOption hcompiles
  obtain ⟨e, he⟩ := Option.isSome_iff_exists.1 hsome
  obtain ⟨same, hsame, hruns, _⟩ := number_of_isClean isClean_resized hpart
  cases hscript.symm.trans hsame
  exact ⟨isClean_resized, hpart, hnumber, script, e, hscript, he,
    hruns e he _ fault hnumber⟩

end Strategy

end CrapsStrategy
