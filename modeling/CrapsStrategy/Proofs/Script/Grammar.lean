import CrapsStrategy.Proofs.Except
import CrapsStrategy.Proofs.Token.Stream
import CrapsStrategy.Script.Parser

/-!
# `CrapsStrategy.Proofs.Script.Grammar`: what the parser accepts

`Reads` is the grammar of expressions as derivations: a phrase, the
tokens before it, its node, and the tokens after it. It has one rule
for each way to write a node, and nothing of how the parser looks for
one. `ReadsScript` goes on with statements and separators.

The parser is sound for it. `reads_expression` and its companions
recurse as the parser does, by the number of tokens and then by the
level of precedence, and `reads_statements` takes a whole script. The
statements that a reserved word heads are left out: the parser skips
their tokens unread.
-/

set_option autoImplicit false

namespace CrapsStrategy

namespace Script

open TokenStream

/-! ### The grammar -/

/-- The tokens that write a comparison, and the tokens after them. -/
inductive Marks : List Located → Comparison → List Located → Prop
  | symbol {t : Located} {ts : List Located} {op : Comparison}
      (ht : Comparison.ofToken? t.token = some op) : Marks (t :: ts) op ts
  | isIn {t : Located} {ts : List Located} (ht : t.token = .keyword .isIn) :
      Marks (t :: ts) .isIn ts
  | notIn {t u : Located} {ts : List Located} (ht : t.token = .keyword .not)
      (hu : u.token = .keyword .isIn) : Marks (t :: u :: ts) .notIn ts

/-- The phrases of the grammar, by the nodes that they stand for. -/
inductive Phrase : Type → Type
  | expression : Phrase Expr
  | disjunction : Phrase Expr
  | disjuncts : Phrase (List Expr)
  | conjunction : Phrase Expr
  | conjuncts : Phrase (List Expr)
  | negation : Phrase Expr
  | comparison : Phrase Expr
  | links : Phrase (List (Comparison × Expr))
  | sum : Phrase Expr
  | product : Phrase Expr
  | factor : Phrase Expr
  | power : Phrase Expr
  | suffixed : Phrase Expr
  | sequence (close : Symbol) : Phrase (List Expr)
  | atom : Phrase Expr

/-- The tokens `ts` start with a phrase for a node, and `us` come after
it. -/
inductive Reads : {α : Type} → Phrase α → List Located → α → List Located → Prop
  -- expression = disjunction (if disjunction else expression)?
  | plain {ts us : List Located} {e : Expr} (he : Reads .disjunction ts e us) :
      Reads .expression ts e us
  | choice {ts us vs ws : List Located} {t u : Located} {body test otherwise : Expr}
      (hbody : Reads .disjunction ts body (t :: us)) (ht : t.token = .keyword .ifThen)
      (htest : Reads .disjunction us test (u :: vs)) (hu : u.token = .keyword .otherwise)
      (hotherwise : Reads .expression vs otherwise ws) :
      Reads .expression ts (.ifElse test body otherwise) ws
  -- disjunction = conjunction (or conjunction)*
  | disjunction {ts us : List Located} {es : List Expr} (hes : Reads .disjuncts ts es us) :
      Reads .disjunction ts (joined .or es) us
  | disjunct {ts us : List Located} {e : Expr} (he : Reads .conjunction ts e us) :
      Reads .disjuncts ts [e] us
  | or {ts us vs : List Located} {t : Located} {e : Expr} {es : List Expr}
      (he : Reads .conjunction ts e (t :: us)) (ht : t.token = .keyword .or)
      (hes : Reads .disjuncts us es vs) : Reads .disjuncts ts (e :: es) vs
  -- conjunction = negation (and negation)*
  | conjunction {ts us : List Located} {es : List Expr} (hes : Reads .conjuncts ts es us) :
      Reads .conjunction ts (joined .and es) us
  | conjunct {ts us : List Located} {e : Expr} (he : Reads .negation ts e us) :
      Reads .conjuncts ts [e] us
  | and {ts us vs : List Located} {t : Located} {e : Expr} {es : List Expr}
      (he : Reads .negation ts e (t :: us)) (ht : t.token = .keyword .and)
      (hes : Reads .conjuncts us es vs) : Reads .conjuncts ts (e :: es) vs
  -- negation = not negation | comparison
  | not {ts us : List Located} {t : Located} {e : Expr} (ht : t.token = .keyword .not)
      (he : Reads .negation ts e us) : Reads .negation (t :: ts) (.unary .not e) us
  | positive {ts us : List Located} {e : Expr} (he : Reads .comparison ts e us) :
      Reads .negation ts e us
  -- comparison = sum (operator sum)*
  | comparison {ts us vs : List Located} {first : Expr} {others : List (Comparison × Expr)}
      (hfirst : Reads .sum ts first us) (hothers : Reads .links us others vs) :
      Reads .comparison ts (chained first others) vs
  | unlinked {ts : List Located} : Reads .links ts [] ts
  | link {ts us vs ws : List Located} {op : Comparison} {e : Expr}
      {others : List (Comparison × Expr)} (hop : Marks ts op us) (he : Reads .sum us e vs)
      (hothers : Reads .links vs others ws) : Reads .links ts ((op, e) :: others) ws
  -- sum and product group to the left
  | term {ts us : List Located} {e : Expr} (he : Reads .product ts e us) : Reads .sum ts e us
  | add {ts us vs : List Located} {t : Located} {op : BinaryOp} {left right : Expr}
      (hleft : Reads .sum ts left (t :: us)) (ht : BinaryOp.additive? t.token = some op)
      (hright : Reads .product us right vs) : Reads .sum ts (.binary op left right) vs
  | factor {ts us : List Located} {e : Expr} (he : Reads .factor ts e us) :
      Reads .product ts e us
  | multiply {ts us vs : List Located} {t : Located} {op : BinaryOp} {left right : Expr}
      (hleft : Reads .product ts left (t :: us))
      (ht : BinaryOp.multiplicative? t.token = some op) (hright : Reads .factor us right vs) :
      Reads .product ts (.binary op left right) vs
  -- factor = sign factor | power
  | signed {ts us : List Located} {t : Located} {op : UnaryOp} {e : Expr}
      (ht : UnaryOp.sign? t.token = some op) (he : Reads .factor ts e us) :
      Reads .factor (t :: ts) (.unary op e) us
  | unsigned {ts us : List Located} {e : Expr} (he : Reads .power ts e us) :
      Reads .factor ts e us
  -- power = suffixed (** factor)?, so a sign may stand in the exponent
  | base {ts us : List Located} {e : Expr} (he : Reads .suffixed ts e us) : Reads .power ts e us
  | power {ts us vs : List Located} {t : Located} {base exponent : Expr}
      (hbase : Reads .suffixed ts base (t :: us)) (ht : t.token = .symbol .power)
      (hexponent : Reads .factor us exponent vs) :
      Reads .power ts (.binary .pow base exponent) vs
  -- suffixed = atom, then arguments in parentheses or a key in brackets
  | atom {ts us : List Located} {e : Expr} (he : Reads .atom ts e us) : Reads .suffixed ts e us
  | call {ts us vs : List Located} {t : Located} {e : Expr} {arguments : List Expr}
      (he : Reads .suffixed ts e (t :: us)) (ht : t.token = .symbol .openParen)
      (harguments : Reads (.sequence .closeParen) us arguments vs) :
      Reads .suffixed ts (.call e arguments t.position) vs
  | subscript {ts us vs : List Located} {t u : Located} {e index : Expr}
      (he : Reads .suffixed ts e (t :: us)) (ht : t.token = .symbol .openBracket)
      (hindex : Reads .expression us index (u :: vs)) (hu : u.token = .symbol .closeBracket) :
      Reads .suffixed ts (.subscript e index t.position) vs
  -- sequence = items up to the closing symbol, a comma after the last one or not
  | close {ts : List Located} {t : Located} {close : Symbol} (ht : t.token = .symbol close) :
      Reads (.sequence close) (t :: ts) [] ts
  | last {ts us : List Located} {t : Located} {close : Symbol} {e : Expr}
      (he : Reads .expression ts e (t :: us)) (ht : t.token = .symbol close) :
      Reads (.sequence close) ts [e] us
  | item {ts us vs : List Located} {t : Located} {close : Symbol} {e : Expr} {es : List Expr}
      (he : Reads .expression ts e (t :: us)) (ht : t.token = .symbol .comma)
      (hes : Reads (.sequence close) us es vs) : Reads (.sequence close) ts (e :: es) vs
  -- atom = literal | name | () | (expression) | (expression, sequence | [sequence
  | literal {ts : List Located} {t : Located} {v : Value} (ht : t.token.literal? = some v) :
      Reads .atom (t :: ts) (.literal v) ts
  | name {ts : List Located} {t : Located} {path : String} (ht : t.token = .name path) :
      Reads .atom (t :: ts) (dotted path t.position) ts
  | unit {ts : List Located} {t u : Located} (ht : t.token = .symbol .openParen)
      (hu : u.token = .symbol .closeParen) : Reads .atom (t :: u :: ts) (.tuple []) ts
  | group {ts us : List Located} {t u : Located} {e : Expr} (ht : t.token = .symbol .openParen)
      (he : Reads .expression ts e (u :: us)) (hu : u.token = .symbol .closeParen) :
      Reads .atom (t :: ts) e us
  | tuple {ts us vs : List Located} {t u : Located} {e : Expr} {es : List Expr}
      (ht : t.token = .symbol .openParen) (he : Reads .expression ts e (u :: us))
      (hu : u.token = .symbol .comma) (hes : Reads (.sequence .closeParen) us es vs) :
      Reads .atom (t :: ts) (.tuple (e :: es)) vs
  | list {ts us : List Located} {t : Located} {es : List Expr}
      (ht : t.token = .symbol .openBracket) (hes : Reads (.sequence .closeBracket) ts es us) :
      Reads .atom (t :: ts) (.list es) us

/-! ### What is left -/

/-- What is left after a token is left of the whole. -/
theorem suffix_of_cons_suffix {ts us : List Located} {t : Located} (h : t :: us <:+ ts) :
    us <:+ ts :=
  (List.suffix_cons t us).trans h

/-- What is left after a comparison is the end of what it was read from. -/
theorem Marks.suffix {ts us : List Located} {op : Comparison} (h : Marks ts op us) : us <:+ ts := by
  cases h with
  | symbol | isIn => exact List.suffix_cons _ _
  | notIn => exact suffix_of_cons_suffix (List.suffix_cons _ _)

/-- The tokens after a phrase are the last ones of those before it. -/
theorem Reads.suffix {α : Type} {phrase : Phrase α} {ts us : List Located} {node : α}
    (h : Reads phrase ts node us) : us <:+ ts := by
  induction h with
  | plain _ ih | disjunction _ ih | disjunct _ ih | conjunction _ ih | conjunct _ ih
  | positive _ ih | term _ ih | factor _ ih | unsigned _ ih | base _ ih | atom _ ih => exact ih
  | choice _ _ _ _ _ ihbody ihtest ihotherwise =>
    exact ihotherwise.trans ((suffix_of_cons_suffix ihtest).trans (suffix_of_cons_suffix ihbody))
  | or _ _ _ ihfirst ihothers | and _ _ _ ihfirst ihothers | add _ _ _ ihfirst ihothers
  | multiply _ _ _ ihfirst ihothers | power _ _ _ ihfirst ihothers
  | call _ _ _ ihfirst ihothers | item _ _ _ ihfirst ihothers =>
    exact ihothers.trans (suffix_of_cons_suffix ihfirst)
  | not _ _ ih | signed _ _ ih | list _ _ ih => exact ih.trans (List.suffix_cons _ _)
  | comparison _ _ ihfirst ihothers => exact ihothers.trans ihfirst
  | unlinked => exact List.suffix_rfl
  | link hop _ _ ihfirst ihothers => exact (ihothers.trans ihfirst).trans hop.suffix
  | subscript _ _ _ _ ihcontainer ihindex =>
    exact (suffix_of_cons_suffix ihindex).trans (suffix_of_cons_suffix ihcontainer)
  | close | literal | name => exact List.suffix_cons _ _
  | last _ _ ih => exact suffix_of_cons_suffix ih
  | unit => exact suffix_of_cons_suffix (List.suffix_cons _ _)
  | group _ _ _ ih => exact (suffix_of_cons_suffix ih).trans (List.suffix_cons _ _)
  | tuple _ _ _ _ ihfirst ihothers =>
    exact (ihothers.trans (suffix_of_cons_suffix ihfirst)).trans (List.suffix_cons _ _)

/-! ### The parser reads phrases -/

variable {ts : List Located}

/-- What the parser takes for a comparison writes one. -/
theorem marks_of_comparison? {op : Comparison} {rest : List Located}
    {hrest : rest.length < ts.length} (h : comparison? ts = some (op, ⟨rest, hrest⟩)) :
    Marks ts op rest := by
  cases ts with
  | nil => cases h
  | cons t ts =>
    simp only [comparison?] at h
    split at h
    · rename_i ht
      cases h
      exact .isIn ht
    · rename_i after ht hafter
      obtain ⟨after, _⟩ := after
      cases h
      obtain ⟨u, hts, hu⟩ := of_after? hafter
      subst hts
      exact .notIn ht hu
    · obtain ⟨found, hfound, heq⟩ := Option.map_eq_some_iff.1 h
      cases heq
      exact .symbol hfound

/-- A literal or a name is read as such. -/
theorem reads_leaf {p : Parsed Expr ts.length} (h : leaf ts = .ok p) :
    Reads .atom ts p.node p.rest := by
  unfold leaf at h
  split at h
  · rename_i v rest hrest hliteral
    cases h
    obtain ⟨t, hts, ht⟩ := of_accept? hliteral
    subst hts
    exact .literal ht
  · rename_i path rest hrest _ hname
    cases h
    obtain ⟨t, hts, ht⟩ := of_accept? hname
    subst hts
    refine .name ?_
    unfold name? at ht
    split at ht <;> simp_all
  · obtain ⟨_, _, h⟩ := bind_eq_ok.1 h
    cases h

-- The cases are those of the parser. What is taken out of a result beside
-- its phrase, the bounds named fewer, is there for the recursion alone.
mutual

/-- What the parser takes for an expression is one in the grammar. -/
theorem reads_expression {ts : List Located} {p : Parsed Expr ts.length}
    (h : expression ts = .ok p) : Reads .expression ts p.node p.rest := by
  rw [expression] at h
  obtain ⟨body, hbody, h⟩ := bind_eq_ok.1 h
  have hreads := reads_disjunction hbody
  split at h
  · rename_i rest hrest hif
    obtain ⟨t, hts, ht⟩ := of_after? hif
    have fewer := Nat.lt_trans hrest body.fewer
    obtain ⟨test, htest, h⟩ := bind_eq_ok.1 h
    have hreadsTest := reads_disjunction htest
    dsimp only at h
    split at h
    · rename_i rest' hrest' helse
      obtain ⟨u, hus, hu⟩ := of_after? helse
      have fewer' := Nat.lt_trans hrest' (Nat.lt_trans test.fewer fewer)
      obtain ⟨otherwise, hotherwise, h⟩ := bind_eq_ok.1 h
      cases h
      rw [hts] at hreads
      rw [hus] at hreadsTest
      exact .choice hreads ht hreadsTest hu (reads_expression hotherwise)
    · cases h
  · cases h
    exact .plain hreads
termination_by (ts.length, 9)
decreasing_by all_goals simp only [Prod.lex_def, true_and]; omega

/-- What it takes for a disjunction is one. -/
theorem reads_disjunction {ts : List Located} {p : Parsed Expr ts.length}
    (h : disjunction ts = .ok p) : Reads .disjunction ts p.node p.rest := by
  rw [disjunction] at h
  obtain ⟨first, hfirst, h⟩ := bind_eq_ok.1 h
  obtain ⟨others, hothers, h⟩ := bind_eq_ok.1 h
  have fewer := first.fewer
  cases h
  exact .disjunction (reads_orTail hothers (reads_conjunction hfirst))
termination_by (ts.length, 8)
decreasing_by all_goals simp only [Prod.lex_def, true_and]; omega

/-- After one operand the tail reads the others. -/
theorem reads_orTail {us : List Located} {p : Parsed (List Expr) (us.length + 1)}
    (h : orTail us = .ok p) {ts : List Located} {e : Expr} (he : Reads .conjunction ts e us) :
    Reads .disjuncts ts (e :: p.node) p.rest := by
  rw [orTail] at h
  split at h
  · rename_i rest hrest hor
    obtain ⟨t, hus, ht⟩ := of_after? hor
    obtain ⟨operand, hoperand, h⟩ := bind_eq_ok.1 h
    have fewer := Nat.lt_trans operand.fewer hrest
    obtain ⟨others, hothers, h⟩ := bind_eq_ok.1 h
    cases h
    rw [hus] at he
    exact .or he ht (reads_orTail hothers (reads_conjunction hoperand))
  · cases h
    exact .disjunct he
termination_by (us.length, 0)
decreasing_by all_goals simp only [Prod.lex_def]; omega

/-- What it takes for a conjunction is one. -/
theorem reads_conjunction {ts : List Located} {p : Parsed Expr ts.length}
    (h : conjunction ts = .ok p) : Reads .conjunction ts p.node p.rest := by
  rw [conjunction] at h
  obtain ⟨first, hfirst, h⟩ := bind_eq_ok.1 h
  obtain ⟨others, hothers, h⟩ := bind_eq_ok.1 h
  have fewer := first.fewer
  cases h
  exact .conjunction (reads_andTail hothers (reads_negation hfirst))
termination_by (ts.length, 7)
decreasing_by all_goals simp only [Prod.lex_def, true_and]; omega

/-- What it takes after a part of a conjunction goes on with the parts.
The part is a parameter, as the grammar has no phrase for a tail. -/
theorem reads_andTail {us : List Located} {p : Parsed (List Expr) (us.length + 1)}
    (h : andTail us = .ok p) {ts : List Located} {e : Expr} (he : Reads .negation ts e us) :
    Reads .conjuncts ts (e :: p.node) p.rest := by
  rw [andTail] at h
  split at h
  · rename_i rest hrest hand
    obtain ⟨t, hus, ht⟩ := of_after? hand
    obtain ⟨operand, hoperand, h⟩ := bind_eq_ok.1 h
    have fewer := Nat.lt_trans operand.fewer hrest
    obtain ⟨others, hothers, h⟩ := bind_eq_ok.1 h
    cases h
    rw [hus] at he
    exact .and he ht (reads_andTail hothers (reads_negation hoperand))
  · cases h
    exact .conjunct he
termination_by (us.length, 0)
decreasing_by all_goals simp only [Prod.lex_def]; omega

/-- What it takes for a negation is one. -/
theorem reads_negation {ts : List Located} {p : Parsed Expr ts.length}
    (h : negation ts = .ok p) : Reads .negation ts p.node p.rest := by
  rw [negation] at h
  split at h
  · rename_i rest hrest hnot
    obtain ⟨t, hts, ht⟩ := of_after? hnot
    obtain ⟨operand, hoperand, h⟩ := bind_eq_ok.1 h
    have hreads := reads_negation hoperand
    cases h
    subst hts
    exact .not ht hreads
  · exact .positive (reads_comparison h)
termination_by (ts.length, 6)
decreasing_by all_goals simp only [Prod.lex_def, true_and]; omega

/-- What it takes for a comparison is one. -/
theorem reads_comparison {ts : List Located} {p : Parsed Expr ts.length}
    (h : comparison ts = .ok p) : Reads .comparison ts p.node p.rest := by
  rw [comparison] at h
  obtain ⟨first, hfirst, h⟩ := bind_eq_ok.1 h
  obtain ⟨others, hothers, h⟩ := bind_eq_ok.1 h
  have fewer := first.fewer
  cases h
  exact .comparison (reads_sum hfirst) (reads_comparisonTail hothers)
termination_by (ts.length, 5)
decreasing_by all_goals simp only [Prod.lex_def, true_and]; omega

/-- What it takes after the first operand is a chain of links. -/
theorem reads_comparisonTail {ts : List Located}
    {p : Parsed (List (Comparison × Expr)) (ts.length + 1)} (h : comparisonTail ts = .ok p) :
    Reads .links ts p.node p.rest := by
  rw [comparisonTail] at h
  split at h
  · rename_i op rest hrest hop
    obtain ⟨operand, hoperand, h⟩ := bind_eq_ok.1 h
    have fewer := Nat.lt_trans operand.fewer hrest
    obtain ⟨others, hothers, h⟩ := bind_eq_ok.1 h
    cases h
    exact .link (marks_of_comparison? hop) (reads_sum hoperand) (reads_comparisonTail hothers)
  · cases h
    exact .unlinked
termination_by (ts.length, 0)
decreasing_by all_goals simp only [Prod.lex_def]; omega

/-- What it takes for a sum is one. -/
theorem reads_sum {ts : List Located} {p : Parsed Expr ts.length} (h : sum ts = .ok p) :
    Reads .sum ts p.node p.rest := by
  rw [sum] at h
  obtain ⟨first, hfirst, h⟩ := bind_eq_ok.1 h
  obtain ⟨others, hothers, h⟩ := bind_eq_ok.1 h
  have fewer := first.fewer
  cases h
  exact reads_sumTail hothers (.term (reads_product hfirst))
termination_by (ts.length, 4)
decreasing_by all_goals simp only [Prod.lex_def, true_and]; omega

/-- What has been read so far is the left operand of the next one. -/
theorem reads_sumTail {us : List Located} {p : Parsed (List (BinaryOp × Expr)) (us.length + 1)}
    (h : sumTail us = .ok p) {ts : List Located} {left : Expr} (hleft : Reads .sum ts left us) :
    Reads .sum ts (fromLeft left p.node) p.rest := by
  rw [sumTail] at h
  split at h
  · rename_i op rest hrest hop
    obtain ⟨t, hus, ht⟩ := of_accept? hop
    obtain ⟨operand, hoperand, h⟩ := bind_eq_ok.1 h
    have fewer := Nat.lt_trans operand.fewer hrest
    obtain ⟨others, hothers, h⟩ := bind_eq_ok.1 h
    cases h
    rw [hus] at hleft
    exact reads_sumTail hothers (.add hleft ht (reads_product hoperand))
  · cases h
    exact hleft
termination_by (us.length, 0)
decreasing_by all_goals simp only [Prod.lex_def]; omega

/-- What it takes for a product is one. -/
theorem reads_product {ts : List Located} {p : Parsed Expr ts.length} (h : product ts = .ok p) :
    Reads .product ts p.node p.rest := by
  rw [product] at h
  obtain ⟨first, hfirst, h⟩ := bind_eq_ok.1 h
  obtain ⟨others, hothers, h⟩ := bind_eq_ok.1 h
  have fewer := first.fewer
  cases h
  exact reads_productTail hothers (.factor (reads_factor hfirst))
termination_by (ts.length, 3)
decreasing_by all_goals simp only [Prod.lex_def, true_and]; omega

/-- What it takes after a product goes on with it. The product so far is
a parameter, since the grammar groups to the left. -/
theorem reads_productTail {us : List Located}
    {p : Parsed (List (BinaryOp × Expr)) (us.length + 1)} (h : productTail us = .ok p)
    {ts : List Located} {left : Expr} (hleft : Reads .product ts left us) :
    Reads .product ts (fromLeft left p.node) p.rest := by
  rw [productTail] at h
  split at h
  · rename_i op rest hrest hop
    obtain ⟨t, hus, ht⟩ := of_accept? hop
    obtain ⟨operand, hoperand, h⟩ := bind_eq_ok.1 h
    have fewer := Nat.lt_trans operand.fewer hrest
    obtain ⟨others, hothers, h⟩ := bind_eq_ok.1 h
    cases h
    rw [hus] at hleft
    exact reads_productTail hothers (.multiply hleft ht (reads_factor hoperand))
  · cases h
    exact hleft
termination_by (us.length, 0)
decreasing_by all_goals simp only [Prod.lex_def]; omega

/-- What it takes for a factor is one. -/
theorem reads_factor {ts : List Located} {p : Parsed Expr ts.length} (h : factor ts = .ok p) :
    Reads .factor ts p.node p.rest := by
  rw [factor] at h
  split at h
  · rename_i op rest hrest hop
    obtain ⟨t, hts, ht⟩ := of_accept? hop
    obtain ⟨operand, hoperand, h⟩ := bind_eq_ok.1 h
    have hreads := reads_factor hoperand
    cases h
    subst hts
    exact .signed ht hreads
  · exact .unsigned (reads_power h)
termination_by (ts.length, 2)
decreasing_by all_goals simp only [Prod.lex_def, true_and]; omega

/-- What it takes for a power is one, or a base without an exponent. -/
theorem reads_power {ts : List Located} {p : Parsed Expr ts.length} (h : power ts = .ok p) :
    Reads .power ts p.node p.rest := by
  rw [power] at h
  obtain ⟨first, hfirst, h⟩ := bind_eq_ok.1 h
  obtain ⟨base, hbase, h⟩ := bind_eq_ok.1 h
  have fewer := first.fewer
  have hreads := reads_suffixes hbase (.atom (reads_atom hfirst))
  dsimp only at h
  split at h
  · rename_i rest hrest hpower
    obtain ⟨t, hus, ht⟩ := of_after? hpower
    have atMost := base.fewer
    obtain ⟨exponent, hexponent, h⟩ := bind_eq_ok.1 h
    cases h
    rw [hus] at hreads
    exact .power hreads ht (reads_factor hexponent)
  · cases h
    exact .base hreads
termination_by (ts.length, 1)
decreasing_by all_goals simp only [Prod.lex_def, true_and]; omega

/-- What has been read so far is called or subscripted next. -/
theorem reads_suffixes {us : List Located} {e : Expr} {p : Parsed Expr (us.length + 1)}
    (h : suffixes e us = .ok p) {ts : List Located} (he : Reads .suffixed ts e us) :
    Reads .suffixed ts p.node p.rest := by
  rw [suffixes] at h
  split at h
  · rename_i rest hrest hopen
    obtain ⟨t, hus, ht⟩ := of_after? hopen
    -- A call, and then what follows it.
    obtain ⟨arguments, harguments, h⟩ := bind_eq_ok.1 h
    have fewer := Nat.lt_trans arguments.fewer hrest
    obtain ⟨whole, hwhole, h⟩ := bind_eq_ok.1 h
    have hreads := reads_sequence harguments
    cases h
    refine reads_suffixes hwhole ?_
    subst hus
    exact .call he ht hreads
  · split at h
    · rename_i rest hrest hopen
      obtain ⟨t, hus, ht⟩ := of_after? hopen
      -- A subscript, and then what follows it.
      obtain ⟨index, hindex, h⟩ := bind_eq_ok.1 h
      obtain ⟨⟨rest', hrest'⟩, hclose, h⟩ := bind_eq_ok.1 h
      have fewer := Nat.lt_trans hrest' (Nat.lt_trans index.fewer hrest)
      obtain ⟨u, hvs, hu⟩ := of_expect hclose
      obtain ⟨whole, hwhole, h⟩ := bind_eq_ok.1 h
      have hreads := reads_expression hindex
      cases h
      refine reads_suffixes hwhole ?_
      subst hus
      rw [hvs] at hreads
      exact .subscript he ht hreads hu
    · cases h
      exact he
termination_by (us.length, 0)
decreasing_by all_goals simp only [Prod.lex_def]; omega

/-- What it takes for items up to a closing symbol is a sequence. -/
theorem reads_sequence {close : Symbol} {ts : List Located} {p : Parsed (List Expr) ts.length}
    (h : sequence close ts = .ok p) : Reads (.sequence close) ts p.node p.rest := by
  rw [sequence] at h
  split at h
  · rename_i rest hrest hclose
    cases h
    obtain ⟨t, hts, ht⟩ := of_after? hclose
    subst hts
    exact .close ht
  · obtain ⟨item, hitem, h⟩ := bind_eq_ok.1 h
    have hreads := reads_expression hitem
    obtain ⟨_, _, h⟩ := bind_eq_ok.1 h
    dsimp only at h
    split at h
    · rename_i rest hrest hcomma
      obtain ⟨t, hus, ht⟩ := of_after? hcomma
      have fewer := Nat.lt_trans hrest item.fewer
      obtain ⟨others, hothers, h⟩ := bind_eq_ok.1 h
      cases h
      rw [hus] at hreads
      exact .item hreads ht (reads_sequence hothers)
    · obtain ⟨⟨rest, hrest⟩, hclose, h⟩ := bind_eq_ok.1 h
      obtain ⟨t, hus, ht⟩ := of_expect hclose
      cases h
      rw [hus] at hreads
      exact .last hreads ht
termination_by (ts.length, 10)
decreasing_by all_goals simp only [Prod.lex_def, true_and]; omega

/-- What it takes for an atom is one. This closes the mutual recursion. -/
theorem reads_atom {ts : List Located} {p : Parsed Expr ts.length} (h : atom ts = .ok p) :
    Reads .atom ts p.node p.rest := by
  rw [atom] at h
  split at h
  · rename_i rest hrest hopen
    obtain ⟨t, hts, ht⟩ := of_after? hopen
    split at h
    · rename_i rest' hrest' hclose
      cases h
      obtain ⟨u, hus, hu⟩ := of_after? hclose
      subst hts hus
      exact .unit ht hu
    · obtain ⟨first, hfirst, h⟩ := bind_eq_ok.1 h
      have hreads := reads_expression hfirst
      have fewer := Nat.lt_trans first.fewer hrest
      dsimp only at h
      split at h
      · rename_i rest' hrest' hclose
        obtain ⟨u, hus, hu⟩ := of_after? hclose
        cases h
        subst hts
        rw [hus] at hreads
        exact .group ht hreads hu
      · -- After a first item only a comma makes it a tuple.
        obtain ⟨⟨rest', hrest'⟩, hcomma, h⟩ := bind_eq_ok.1 h
        obtain ⟨u, hus, hu⟩ := of_expect hcomma
        have fewer' := Nat.lt_trans hrest' fewer
        obtain ⟨others, hothers, h⟩ := bind_eq_ok.1 h
        have hreadsOthers := reads_sequence hothers
        cases h
        subst hts
        rw [hus] at hreads
        exact .tuple ht hreads hu hreadsOthers
  · split at h
    · rename_i rest hrest hopen
      obtain ⟨t, hts, ht⟩ := of_after? hopen
      obtain ⟨items, hitems, h⟩ := bind_eq_ok.1 h
      have hreads := reads_sequence hitems
      cases h
      subst hts
      exact .list ht hreads
    · exact reads_leaf h
termination_by (ts.length, 0)
decreasing_by all_goals simp only [Prod.lex_def]; omega

end

/-! ### Statements -/

/-- The tokens `ts` start with a statement that no reserved word stands
at the head of, and `us` come after it. -/
inductive ReadsStatement : List Located → Statement → List Located → Prop
  | expression {ts us : List Located} {e : Expr} (he : Reads .expression ts e us) :
      ReadsStatement ts (.expression e) us
  | assign {ts us vs : List Located} {t : Located} {op : Option BinaryOp} {target value : Expr}
      (htarget : Reads .expression ts target (t :: us))
      (ht : BinaryOp.assignment? t.token = some op) (hvalue : Reads .expression us value vs) :
      ReadsStatement ts (.assign target op value (next ts).position) vs

/-- The tokens are statements up to the end of the input, divided by
separators. -/
inductive ReadsScript : List Located → List Statement → Prop
  | done {ts : List Located} (hend : (next ts).token = .endOfInput) : ReadsScript ts []
  | separator {ts : List Located} {t : Located} {body : List Statement}
      (ht : isSeparator t.token = true) (hbody : ReadsScript ts body) : ReadsScript (t :: ts) body
  | statement {ts us : List Located} {s : Statement} {body : List Statement}
      (hs : ReadsStatement ts s us)
      (hnext : (next us).token = .endOfInput ∨ isSeparator (next us).token = true)
      (hbody : ReadsScript us body) : ReadsScript ts (s :: body)

/-- A statement is read, unless a reserved word stands at its head. -/
theorem reads_statement {ts : List Located} {p : Parsed Statement ts.length}
    (h : statement ts = .ok p) :
    ReadsStatement ts p.node p.rest ∨ ∃ word position, p.node = .forbidden word position := by
  unfold statement at h
  split at h
  · -- The parser skips the rest of such a statement.
    rename_i word rest hrest _
    cases h
    exact .inr ⟨word, _, rfl⟩
  · obtain ⟨first, hfirst, h⟩ := bind_eq_ok.1 h
    have hreads := reads_expression hfirst
    refine .inl ?_
    split at h
    · rename_i op rest hrest hop
      obtain ⟨t, hus, ht⟩ := of_accept? hop
      obtain ⟨value, hvalue, h⟩ := bind_eq_ok.1 h
      cases h
      rw [hus] at hreads
      exact .assign hreads ht (reads_expression hvalue)
    · cases h
      exact .expression hreads

/-- Separators in front of a script are part of it. -/
theorem ReadsScript.of_skipSeparators {ts : List Located} {body : List Statement}
    (h : ReadsScript (skipSeparators ts) body) : ReadsScript ts body := by
  induction ts with
  | nil => exact h
  | cons t ts ih =>
    unfold skipSeparators at h
    split at h
    · rename_i ht
      exact .separator ht (ih h)
    · exact h

/-- The statements of a script are read to the end, unless a reserved
word stands at the head of one. -/
theorem reads_statements {ts : List Located} {body : List Statement}
    (h : statements ts = .ok body)
    (hallowed : ∀ s ∈ body, ∀ word position, s ≠ .forbidden word position) :
    ReadsScript ts body := by
  induction ts using statements.induct generalizing body with
  | case1 ts hend =>
    rw [statements, if_pos hend] at h
    cases h
    exact .of_skipSeparators (.done hend)
  | case2 ts hmore ih =>
    rw [statements, if_neg hmore] at h
    obtain ⟨first, hfirst, h⟩ := bind_eq_ok.1 h
    dsimp only at h
    split at h
    · rename_i hnext
      obtain ⟨others, hothers, h⟩ := bind_eq_ok.1 h
      cases h
      have hrest := ih first hothers fun s hs => hallowed s (List.mem_cons_of_mem _ hs)
      rcases reads_statement hfirst with hreads | ⟨word, position, hforbidden⟩
      · exact .of_skipSeparators (.statement hreads hnext hrest)
      · exact absurd hforbidden (hallowed _ List.mem_cons_self word position)
    · cases h

end Script

end CrapsStrategy
