import CrapsStrategy.Guard
import CrapsStrategy.Proofs.Condition.Widening
import CrapsStrategy.Proofs.Script.Lines
import Mathlib.Data.List.Basic

/-!
# `CrapsStrategy.Proofs.Guard`: one guard in both dialects

A text that is a condition and a safe script of one expression has one
tree: the expression is the condition in the wide dialect
(`eq_widened`). Both parsers see the same tokens, but for the line ends,
and a safe script has no points in its names. What the two trees say of a
scope no longer depends on the text, and a guard tests the same in the
dialect that it compiles to as in the wide one: `test_narrow_of_wide`.
-/

set_option autoImplicit false

namespace CrapsStrategy

open TokenStream

namespace Script

variable {source : String} {s : Script}

/-- A safe script is read from its tokens, and these are plain. -/
theorem readsScript_of_parse (h : parse source = .ok s) (hcheck : s.check = .ok ()) :
    ∃ lines, tokenize .script source = .ok lines ∧ ReadsScript lines s.body ∧
      ∀ t ∈ lines, t.token.Plain := by
  obtain ⟨lines, hlines, h⟩ := bind_eq_ok.1 h
  have hsafe := check_eq_ok.1 hcheck
  have hreads : ReadsScript lines s.body := readsScript_of_check (ofTokens_eq_ok_iff.1 h).1 hsafe
  refine ⟨lines, hlines, hreads, ?_⟩
  have hplain := hreads.plainToEnd hsafe
  obtain ⟨init, last, rfl, hlexed⟩ := tokenize_eq_ok hlines
  rw [PlainToEnd, takeWhile_eq_of_end (fun t ht => (hlexed t ht).ne_endOfInput) rfl] at hplain
  exact List.forall_mem_append.2 ⟨hplain, List.forall_mem_singleton.2 trivial⟩

/-- A text of blanks is no expression. -/
theorem ReadsScript.not_blank {lines : List Located} {e : Expr}
    (hreads : ReadsScript lines [.expression e]) (hlines : tokenize .script source = .ok lines) :
    Text.isBlankText source = false := by
  refine Bool.eq_false_iff.2 fun hblank => ?_
  obtain ⟨last, htokens⟩ := tokenize_blank hblank
  have hline := tokenize_condition_eq htokens hlines
  obtain ⟨us, hus, _⟩ := hreads.reads_single (by rw [← hline]; simp [next])
  rw [← hline] at hus
  have hmore : (next [⟨.endOfInput, last⟩]).token ≠ .endOfInput := hus.next_ne (by decide)
  exact hmore rfl

end Script

namespace Guard

variable {source : String} {c : Condition} {s : Script} {e : Expr}

/-! ### One tree -/

/-- The expression of a guard is its condition in the wide dialect. -/
theorem eq_widened (hc : Condition.parse source = .ok c) (hs : Script.parse source = .ok s)
    (he : s.expression? = some e) (hcheck : s.check = .ok ()) :
    c.Proper ∧ e = c.widened := by
  obtain ⟨lines, hlines, hreads, hplain⟩ := Script.readsScript_of_parse hs hcheck
  rw [Script.body_eq_of_expression? he] at hreads
  rw [Condition.parse, hreads.not_blank hlines] at hc
  obtain ⟨tokens, htokens, hc⟩ := bind_eq_ok.1 hc
  have hline := tokenize_condition_eq htokens hlines
  obtain ⟨init, last, rfl, hlexed⟩ := tokenize_eq_ok htokens
  -- The tokens of the condition write its expression in the wide grammar.
  have hderives := (Condition.ofTokens_eq_ok_iff (fun t ht => (hlexed t ht).ne_endOfInput) c).1 hc
  have hinit : ∀ t ∈ init, t.token.Plain := by
    intro t ht
    have hmem : t ∈ oneLine lines := hline ▸ List.mem_append_left _ ht
    exact hplain t (List.mem_of_mem_filter hmem)
  have hwide : Script.Reads .expression (init ++ [⟨.endOfInput, last⟩]) c.widened _ :=
    .plain (hderives.widen hinit _)
  refine ⟨hderives.proper, ?_⟩
  -- So does the script, on the same tokens, and its parser is a function.
  have hstart : (next (oneLine lines)).token ≠ .symbol .semicolon :=
    hline ▸ hwide.next_ne (by decide)
  obtain ⟨us, hus, hend⟩ := hreads.reads_single hstart
  rw [← hline] at hus
  exact ((hus.yields_expression hend).unique
    (hwide.yields_expression (Script.binding_of_ends (.inl rfl)))).1

/-! ### One answer -/

/-- The value of a guard that is one expression is that of the
expression. -/
theorem value_wide (h : s.expression? = some e) (scope : Scope) :
    (wide s).value scope = e.eval scope := by
  rw [value, Script.value, h]

/-- A text that is a condition, and a safe script of one expression, has
a value as a condition of the same truth as it has in the wide dialect,
whenever it has one there. So the guard that it compiles to holds when
it does in the wide dialect, and does not when it does not. -/
theorem test_narrow_of_wide (hc : Condition.parse source = .ok c)
    (hs : Script.parse source = .ok s) (he : s.expression? = some e)
    (hcheck : s.check = .ok ()) (hoperands : c.SingleOperands) (scope : Scope) :
    (∀ v, (wide s).value scope = .ok v →
      ∃ w, (narrow c).value scope = .ok w ∧ w.truthy = v.truthy) ∧
    (∀ b, (wide s).test scope = .ok b → (narrow c).test scope = .ok b) ∧
    ∀ text, Text.trim text = source →
      ∃ g, compile text = .ok g ∧ ∀ b, (wide s).test scope = .ok b → g.test scope = .ok b := by
  obtain ⟨hproper, rfl⟩ := eq_widened hc hs he hcheck
  have hvalue : ∀ v, (wide s).value scope = .ok v →
      ∃ w, (narrow c).value scope = .ok w ∧ w.truthy = v.truthy := by
    intro v hv
    rw [value_wide he] at hv
    exact (Condition.eval_of_widened hproper hoperands scope).1 v hv
  have htest : ∀ b, (wide s).test scope = .ok b → (narrow c).test scope = .ok b := by
    intro b hb
    obtain ⟨v, hv, hb⟩ := bind_eq_ok.1 hb
    cases hb
    obtain ⟨w, hw, htruth⟩ := hvalue v hv
    rw [test, hw, ← htruth]
    rfl
  refine ⟨hvalue, htest, fun text htext => ⟨narrow c, ?_, htest⟩⟩
  rw [compile, Condition.compile, htext, hc]

/-- A guard that is a number as an expression and true as a condition. -/
def unitsSource : String :=
  "mode == 'hot' AND units"

/-- Its tokens, the same in both dialects. -/
def unitsTokens : List Located :=
  [⟨.name "mode", ⟨1, 1⟩⟩, ⟨.symbol .equal, ⟨1, 6⟩⟩, ⟨.text "hot", ⟨1, 9⟩⟩,
    ⟨.keyword .and, ⟨1, 15⟩⟩, ⟨.name "units", ⟨1, 19⟩⟩, ⟨.endOfInput, ⟨1, 24⟩⟩]

/-- The guard in the narrow dialect. The bare name is a part of the
conjunction. -/
def unitsCondition : Condition :=
  .and [.compare .eq (.path "mode") (.literal (.text "hot")), .path "units"]

/-- The guard in the wide dialect, a script of one expression. -/
def unitsScript : Script :=
  { body := [.expression (.logical .and
      [.compare (.name "mode") [(.eq, .literal (.text "hot"))], .name "units"])] }

/-- A scope with a mode and some units, and nothing else. -/
def unitsScope : Scope := fun name =>
  if name = "mode" then .ok (.text "hot") else if name = "units" then .ok (.int 5)
  else .error (.unknownPath name)

/-- The one comparison of the guard has a path and a literal on its
sides. -/
theorem singleOperands_unitsCondition : unitsCondition.SingleOperands := by
  refine Condition.singleOperands_of_parts (fun part hpart => ?_) nofun
  cases hpart with
  | conjunct hmem =>
    rcases List.mem_pair.1 hmem with rfl | rfl
    · refine Condition.singleOperands_of_parts (fun operand hoperand => ?_) ?_
      · cases hoperand <;> exact Condition.singleOperands_of_parts nofun nofun
      · rintro op left right ⟨⟩
        exact ⟨rfl, rfl⟩
    · exact Condition.singleOperands_of_parts nofun nofun

/-- The script evaluates to a number and the condition to a truth value,
and both hold. A text with a line break in front is the same guard. -/
theorem test_narrow_unitsCondition :
    Condition.parse unitsSource = .ok unitsCondition ∧
      Script.parse unitsSource = .ok unitsScript ∧ unitsScript.check = .ok () ∧
      (wide unitsScript).value unitsScope = .ok (.int 5) ∧
      (∃ w, (narrow unitsCondition).value unitsScope = .ok w ∧ w.truthy = true) ∧
      ∃ g, compile "\nmode == 'hot' AND units" = .ok g ∧ g.test unitsScope = .ok true := by
  have htokens : tokenize .condition unitsSource = .ok unitsTokens := by
    decide +kernel
  have hwide : tokenize .script unitsSource = .ok unitsTokens := by
    decide +kernel
  have hc : Condition.parse unitsSource = .ok unitsCondition := by
    rw [Condition.parse_eq_ofTokens (by rfl) htokens]
    with_unfolding_all rfl
  have hs : Script.parse unitsSource = .ok unitsScript := by
    rw [Script.parse_eq_ofTokens hwide]
    with_unfolding_all rfl
  have hvalue : (wide unitsScript).value unitsScope = .ok (.int 5) := by
    rfl
  have htrim : Text.trim "\nmode == 'hot' AND units" = unitsSource := by
    rfl
  obtain ⟨hvalues, _, hcompile⟩ :=
    test_narrow_of_wide hc hs rfl rfl singleOperands_unitsCondition unitsScope
  obtain ⟨g, hg, htest⟩ := hcompile _ htrim
  refine ⟨hc, hs, rfl, hvalue, hvalues _ hvalue, g, hg, htest _ ?_⟩
  rw [test, hvalue]
  rfl

end Guard

end CrapsStrategy
