import CrapsStrategy.Proofs.Script.Completeness
import CrapsStrategy.Proofs.Token.Dialect

/-!
# `CrapsStrategy.Proofs.Script.Lines`: line ends around an expression

An expression has no line ends among its tokens, so it is the same
expression with all line ends left out (`Reads.oneLine`). In a script of
one expression they only stand before and after it:
`ReadsScript.reads_single`.
-/

set_option autoImplicit false

namespace CrapsStrategy

namespace Script

open TokenStream

/-- A comparison is written on one line, also where it takes two words. -/
theorem Marks.oneLine {ts us : List Located} {op : Comparison} (h : Marks ts op us) :
    Marks (oneLine ts) op (oneLine us) := by
  cases h with
  | symbol ht =>
    rw [oneLine_of_eq_some ht rfl]
    exact .symbol ht
  | isIn ht =>
    rw [oneLine_keyword ht]
    exact .isIn ht
  | notIn ht hu =>
    rw [oneLine_keyword ht, oneLine_keyword hu]
    exact .notIn ht hu

/-- An expression reads the same without the line ends behind it. None
stand between its own tokens, because no phrase of the grammar has one. -/
theorem Reads.oneLine {α : Type} {phrase : Phrase α} {ts us : List Located} {node : α}
    (h : Reads phrase ts node us) : Reads phrase (oneLine ts) node (oneLine us) := by
  -- Each token that a rule names is no line end, so it stays, and what is
  -- read behind it is the line the premise is about.
  induction h with
  | plain _ ih => exact .plain ih
  | choice _ ht _ hu _ ihbody ihtest ihotherwise =>
    rw [oneLine_keyword ht] at ihbody
    rw [oneLine_keyword hu] at ihtest
    exact .choice ihbody ht ihtest hu ihotherwise
  | disjunction _ ih => exact .disjunction ih
  | disjunct _ ih => exact .disjunct ih
  | or _ ht _ ihfirst ihothers =>
    rw [oneLine_keyword ht] at ihfirst
    exact .or ihfirst ht ihothers
  | conjunction _ ih => exact .conjunction ih
  | conjunct _ ih => exact .conjunct ih
  | and _ ht _ ihfirst ihothers =>
    rw [oneLine_keyword ht] at ihfirst
    exact .and ihfirst ht ihothers
  | not ht _ ih =>
    rw [oneLine_keyword ht]
    exact .not ht ih
  | positive _ ih => exact .positive ih
  | comparison _ _ ihfirst ihothers => exact .comparison ihfirst ihothers
  | unlinked => exact .unlinked
  | link hop _ _ ihfirst ihothers => exact .link hop.oneLine ihfirst ihothers
  | term _ ih => exact .term ih
  | add _ ht _ ihleft ihright =>
    rw [oneLine_of_eq_some ht rfl] at ihleft
    exact .add ihleft ht ihright
  | factor _ ih => exact .factor ih
  | multiply _ ht _ ihleft ihright =>
    rw [oneLine_of_eq_some ht rfl] at ihleft
    exact .multiply ihleft ht ihright
  | signed ht _ ih =>
    rw [oneLine_of_eq_some ht rfl]
    exact .signed ht ih
  | unsigned _ ih => exact .unsigned ih
  | base _ ih => exact .base ih
  | power _ ht _ ihbase ihexponent =>
    rw [oneLine_symbol ht] at ihbase
    exact .power ihbase ht ihexponent
  | atom _ ih => exact .atom ih
  | call _ ht _ ihfunction iharguments =>
    rw [oneLine_symbol ht] at ihfunction
    exact .call ihfunction ht iharguments
  | subscript _ ht _ hu ihcontainer ihindex =>
    rw [oneLine_symbol ht] at ihcontainer
    rw [oneLine_symbol hu] at ihindex
    exact .subscript ihcontainer ht ihindex hu
  | close ht =>
    rw [oneLine_symbol ht]
    exact .close ht
  | last _ ht ih =>
    rw [oneLine_symbol ht] at ih
    exact .last ih ht
  | item _ ht _ ihfirst ihothers =>
    rw [oneLine_symbol ht] at ihfirst
    exact .item ihfirst ht ihothers
  | literal ht =>
    rw [oneLine_of_eq_some ht rfl]
    exact .literal ht
  | name ht =>
    rw [oneLine_cons (by simp [ht])]
    exact .name ht
  | unit ht hu =>
    rw [oneLine_symbol ht, oneLine_symbol hu]
    exact .unit ht hu
  | group ht _ hu ih =>
    rw [oneLine_symbol hu] at ih
    rw [oneLine_symbol ht]
    exact .group ht ih hu
  | tuple ht _ hu _ ihfirst ihothers =>
    rw [oneLine_symbol hu] at ihfirst
    rw [oneLine_symbol ht]
    exact .tuple ht ihfirst hu ihothers
  | list ht _ ih =>
    rw [oneLine_symbol ht]
    exact .list ht ih

variable {ts us : List Located}

/-- The end of the input is next on one line, too. -/
theorem next_oneLine_of_end (h : (next ts).token = .endOfInput) :
    (next (oneLine ts)).token = .endOfInput := by
  cases ts with
  | nil => rfl
  | cons t ts =>
    have ht : t.token = .endOfInput := h
    rw [oneLine_cons (by simp [ht])]
    exact ht

/-- Nothing after the statements of a script goes on with them. -/
theorem ReadsScript.binding_oneLine (h : ReadsScript us []) : binding (oneLine us) = 9 := by
  generalize hbody : ([] : List Statement) = body at h
  induction h with
  | done hend => exact binding_of_ends (.inl (next_oneLine_of_end hend))
  | separator ht _ ih =>
    rcases isSeparator_iff.1 ht with hline | hsemicolon
    · rw [oneLine_newline hline]
      exact ih hbody
    · rw [oneLine_symbol hsemicolon]
      exact binding_of_ends (.inr ht)
  | statement => cases hbody

/-- The one expression of a script is read with its line ends left out,
unless an empty statement stands before it. -/
theorem ReadsScript.reads_single {e : Expr} (h : ReadsScript ts [.expression e])
    (hstart : (next (oneLine ts)).token ≠ .symbol .semicolon) :
    ∃ us, Reads .expression (oneLine ts) e us ∧ binding us = 9 := by
  -- On the separators before the expression; after it there are no statements.
  generalize hbody : [Statement.expression e] = body at h
  induction h with
  | done => cases hbody
  | separator ht _ ih =>
    rcases isSeparator_iff.1 ht with hline | hsemicolon
    · rw [oneLine_newline hline] at hstart ⊢
      exact ih hstart hbody
    · rw [oneLine_symbol hsemicolon] at hstart
      exact absurd hsemicolon hstart
  | statement hs _ hrest =>
    cases hbody
    cases hs with
    | expression he => exact ⟨_, he.oneLine, hrest.binding_oneLine⟩

end Script

end CrapsStrategy
