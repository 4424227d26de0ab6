import CrapsStrategy.Proofs.Script.Grammar
import Mathlib.Data.List.Basic

/-!
# `CrapsStrategy.Proofs.Script.Completeness`: what the grammar derives is accepted

The parser looks one token ahead, and two at `not in`. That is enough
because every token binds to what is before it at one level of
precedence (`binding`), and every phrase starts with few of the tokens
(`Token.lead`). A phrase that a derivation ends before a looser token
is read by the parser to the same end: `Reads.parses`, by induction on
the derivation. Where the grammar groups to the left and the parser goes
on with a tail, the induction has the tail as its parameter.

Together with the other direction (`reads_statements`) the parser and
the grammar accept the same lists of tokens with the same trees:
`parse_eq_ok_iff`.
-/

set_option autoImplicit false

namespace CrapsStrategy

/-! ### The token that a phrase starts with -/

/-- What a word may start. The numbers are those of `Token.lead`. -/
def Keyword.lead : Keyword → Nat
  | true | false | none => 0
  | not => 2
  | _ => 3

/-- What a symbol may start: an atom in parentheses or brackets, or a
signed factor. -/
def Symbol.lead : Symbol → Nat
  | openParen | openBracket => 0
  | plus | minus => 1
  | _ => 3

/-- What a token may start: 0 is an atom, 1 a factor, 2 a negation, and
3 no phrase at all. -/
def Token.lead : Token → Nat
  | int _ | float _ | text _ | name _ => 0
  | keyword word => word.lead
  | symbol s => s.lead
  | reserved _ | newline | endOfInput => 3

/-- There are four levels, so a phrase of the last one may start with
any token. -/
theorem Token.lead_le (token : Token) : token.lead ≤ 3 := by
  cases token with
  | keyword word => cases word <;> decide
  | symbol s => cases s <;> decide
  | int i | float x | text s | name path => exact Nat.zero_le 3
  | reserved word | newline | endOfInput => exact Nat.le_refl 3

/-- A literal starts an atom. -/
theorem Token.lead_of_literal {token : Token} {v : Value} (h : token.literal? = some v) :
    token.lead = 0 := by
  cases token with
  | keyword word => cases word <;> first | rfl | cases h
  | int i | float x | text s => rfl
  | name path | reserved word | symbol s | newline | endOfInput => cases h

/-- A sign starts a factor. -/
theorem Token.lead_of_sign {token : Token} {op : UnaryOp} (h : UnaryOp.sign? token = some op) :
    token.lead = 1 := by
  unfold UnaryOp.sign? at h
  split at h
  · rfl
  · rfl
  · cases h

namespace Script

open TokenStream

variable {ts us vs ws : List Located} {t u : Located}

/-! ### The token after a phrase -/

/-- How loosely the next tokens bind to what is before them, from the
parenthesis of a call to the `if` of a choice. Tokens that no phrase
goes on with are the loosest. -/
def binding (us : List Located) : Nat :=
  match (next us).token with
  | .symbol .openParen | .symbol .openBracket => 1
  | .symbol .power => 2
  | .symbol .times | .symbol .divide | .symbol .floorDivide | .symbol .remainder => 3
  | .symbol .plus | .symbol .minus => 4
  | .symbol .less | .symbol .greater | .symbol .atMost | .symbol .atLeast | .symbol .equal
  | .symbol .notEqual | .keyword .isIn => 5
  | .keyword .not => if (next us.tail).token = .keyword .isIn then 5 else 9
  | .keyword .and => 6
  | .keyword .or => 7
  | .keyword .ifThen => 8
  | _ => 9

/-- No token binds as tightly as an atom, so an atom ends wherever it
does. -/
theorem binding_pos (us : List Located) : 0 < binding us := by
  unfold binding
  split <;> (try split) <;> omega

/-- The signs of a sum are of one level. -/
theorem binding_of_additive {op : BinaryOp} (h : BinaryOp.additive? (next us).token = some op) :
    binding us = 4 := by
  unfold BinaryOp.additive? at h
  split at h
  case h_3 => cases h
  all_goals
    rename_i htoken
    rw [binding, htoken]

/-- The symbols of a product are of one level. -/
theorem binding_of_multiplicative {op : BinaryOp}
    (h : BinaryOp.multiplicative? (next us).token = some op) : binding us = 3 := by
  unfold BinaryOp.multiplicative? at h
  split at h
  case h_5 => cases h
  all_goals
    rename_i htoken
    rw [binding, htoken]

/-- All comparisons are of one level. `not` is among them only in front
of `in`, which takes a second token to tell. -/
theorem binding_of_marks {op : Comparison} (h : Marks ts op us) : binding ts = 5 := by
  cases h with
  | @symbol t _ _ ht =>
    unfold Comparison.ofToken? at ht
    split at ht
    case h_7 => cases ht
    all_goals
      rename_i htoken
      simp [binding, next, htoken]
  | isIn ht => simp [binding, next, ht]
  | notIn ht hu => simp [binding, next, ht, hu]

/-- A token that goes on with phrases at one level only is not next when
the level is another. -/
theorem after?_eq_none_of_binding {token : Token} {level : Nat} (hend : token ≠ .endOfInput)
    (hlevel : (next us).token = token → binding us = level) (h : binding us ≠ level) :
    after? token us = none :=
  (after?_eq_none hend).2 fun ht => h (hlevel ht)

/-- What the first token of a phrase starts at most. A chain of links
may be empty, and a sequence start with its end. -/
def Phrase.lead : {α : Type} → Phrase α → Nat
  | _, .expression | _, .disjunction | _, .disjuncts | _, .conjunction | _, .conjuncts
  | _, .negation => 2
  | _, .comparison | _, .sum | _, .product | _, .factor => 1
  | _, .power | _, .suffixed | _, .atom => 0
  | _, .links | _, .sequence _ => 3

/-- A phrase starts with a token that may start it. The induction goes
through the part that the phrase starts with. -/
theorem Reads.lead_le {α : Type} {phrase : Phrase α} {ts us : List Located} {node : α}
    (h : Reads phrase ts node us) : (next ts).token.lead ≤ phrase.lead := by
  induction h with
  | plain _ ih | choice _ _ _ _ _ ih _ _ | disjunction _ ih | disjunct _ ih | or _ _ _ ih _
  | conjunction _ ih | conjunct _ ih | and _ _ _ ih _ => exact ih
  | not ht => exact Nat.le_of_eq (congrArg Token.lead ht)
  | positive _ ih => exact Nat.le_succ_of_le ih
  | comparison _ _ ih _ => exact ih
  | unlinked | link | close | last | item => exact Token.lead_le _
  | term _ ih | add _ _ _ ih _ | factor _ ih | multiply _ _ _ ih _ => exact ih
  | signed ht => exact Nat.le_of_eq (Token.lead_of_sign ht)
  | unsigned _ ih => exact Nat.le_succ_of_le ih
  | base _ ih | power _ _ _ ih _ | atom _ ih | call _ _ _ ih _ | subscript _ _ _ _ ih _ =>
    exact ih
  | literal ht => exact Nat.le_of_eq (Token.lead_of_literal ht)
  | name ht | unit ht | group ht | tuple ht | list ht =>
    exact Nat.le_of_eq (congrArg Token.lead ht)

/-- A token that starts less than a phrase is not its first one. -/
theorem Reads.next_ne {α : Type} {phrase : Phrase α} {node : α} (h : Reads phrase ts node us)
    {token : Token} (htoken : phrase.lead < token.lead) : (next ts).token ≠ token := by
  intro hnext
  have hlead := h.lead_le
  rw [hnext] at hlead
  omega

/-! ### Steps of the parser

One step for each way to go on, with the results of the parts as
hypotheses. A tail stops where the next token binds at another level. -/

variable {e first left right test otherwise index exponent whole : Expr} {es items : List Expr}
  {links : List (Comparison × Expr)} {terms : List (BinaryOp × Expr)} {close : Symbol}

/-- A disjunction that no `if` follows is the whole expression. -/
theorem yields_expression_plain (h : Yields (disjunction ts) e us) (hend : binding us ≠ 8) :
    Yields (expression ts) e us := by
  rw [expression]
  refine h.bind fun _ => ?_
  dsimp only
  rw [after?_eq_none_of_binding (by decide) (fun ht => by rw [binding, ht]) hend]
  exact ⟨_, rfl⟩

/-- A disjunction with an `if` and an `else` behind it is the middle of
a choice. -/
theorem yields_expression_choice (hbody : Yields (disjunction ts) e (t :: us))
    (ht : t.token = .keyword .ifThen) (htest : Yields (disjunction us) test (u :: vs))
    (hu : u.token = .keyword .otherwise) (hotherwise : Yields (expression vs) otherwise ws) :
    Yields (expression ts) (.ifElse test e otherwise) ws := by
  rw [expression]
  refine hbody.bind fun _ => ?_
  dsimp only
  rw [after?_cons ht]
  refine htest.bind fun _ => ?_
  dsimp only
  rw [after?_cons hu]
  exact hotherwise.bind fun _ => ⟨_, rfl⟩

/-- A disjunction is parsed as its first part and the further ones. -/
theorem yields_disjunction (hfirst : Yields (conjunction ts) first us)
    (hothers : Yields (orTail us) es vs) :
    Yields (disjunction ts) (joined .or (first :: es)) vs := by
  rw [disjunction]
  exact hfirst.bind fun _ => hothers.bind fun _ => ⟨_, rfl⟩

/-- The parts of a disjunction end where no `or` is next. -/
theorem yields_orTail_stop (hend : binding us ≠ 7) : Yields (orTail us) [] us := by
  rw [orTail, after?_eq_none_of_binding (by decide) (fun ht => by rw [binding, ht]) hend]
  exact ⟨_, rfl⟩

/-- An `or` goes on with a conjunction. -/
theorem yields_orTail_cons (ht : t.token = .keyword .or)
    (hfirst : Yields (conjunction ts) first us) (hothers : Yields (orTail us) es vs) :
    Yields (orTail (t :: ts)) (first :: es) vs := by
  rw [orTail, after?_cons ht]
  exact hfirst.bind fun _ => hothers.bind fun _ => ⟨_, rfl⟩

/-- A conjunction is parsed as its first part and the further ones. -/
theorem yields_conjunction (hfirst : Yields (negation ts) first us)
    (hothers : Yields (andTail us) es vs) :
    Yields (conjunction ts) (joined .and (first :: es)) vs := by
  rw [conjunction]
  exact hfirst.bind fun _ => hothers.bind fun _ => ⟨_, rfl⟩

/-- The parts of a conjunction end where no `and` is next. -/
theorem yields_andTail_stop (hend : binding us ≠ 6) : Yields (andTail us) [] us := by
  rw [andTail, after?_eq_none_of_binding (by decide) (fun ht => by rw [binding, ht]) hend]
  exact ⟨_, rfl⟩

/-- An `and` goes on with a negation. -/
theorem yields_andTail_cons (ht : t.token = .keyword .and)
    (hfirst : Yields (negation ts) first us) (hothers : Yields (andTail us) es vs) :
    Yields (andTail (t :: ts)) (first :: es) vs := by
  rw [andTail, after?_cons ht]
  exact hfirst.bind fun _ => hothers.bind fun _ => ⟨_, rfl⟩

/-- A `not` is parsed as the negation of what follows. -/
theorem yields_negation_not (ht : t.token = .keyword .not) (h : Yields (negation ts) e us) :
    Yields (negation (t :: ts)) (.unary .not e) us := by
  rw [negation, after?_cons ht]
  exact h.bind fun _ => ⟨_, rfl⟩

/-- Without a `not` in front a negation is a comparison. -/
theorem yields_negation_positive (h : Yields (comparison ts) e us)
    (hstart : (next ts).token ≠ .keyword .not) : Yields (negation ts) e us := by
  rw [negation, (after?_eq_none (by decide)).2 hstart]
  exact h

/-- A comparison is parsed as its first operand and a chain of links. -/
theorem yields_comparison (hfirst : Yields (sum ts) first us)
    (hothers : Yields (comparisonTail us) links vs) :
    Yields (comparison ts) (chained first links) vs := by
  rw [comparison]
  exact hfirst.bind fun _ => hothers.bind fun _ => ⟨_, rfl⟩

/-- Marks of a comparison are what the parser looks for. -/
theorem comparison?_of_marks {op : Comparison} (h : Marks ts op us) :
    ∃ fewer, comparison? ts = some (op, ⟨us, fewer⟩) := by
  cases h with
  | @symbol t _ _ ht =>
    refine ⟨Nat.lt_succ_self _, ?_⟩
    simp only [comparison?]
    split
    · rename_i hin
      rw [hin] at ht
      cases ht
    · rename_i hnot _
      rw [hnot] at ht
      cases ht
    · rw [ht]
      rfl
  | isIn ht => exact ⟨Nat.lt_succ_self _, by rw [comparison?, ht]; rfl⟩
  | notIn ht hu => exact ⟨_, by rw [comparison?, ht, after?_cons hu]; rfl⟩

/-- A chain ends where no comparison is next. -/
theorem yields_comparisonTail_stop (hend : binding us ≠ 5) :
    Yields (comparisonTail us) [] us := by
  have hnone : comparison? us = none := by
    cases hmarks : comparison? us with
    | none => rfl
    | some found => exact absurd (binding_of_marks (marks_of_comparison? hmarks)) hend
  rw [comparisonTail, hnone]
  exact ⟨_, rfl⟩

/-- A comparison, be it of one token or of two, goes on with a sum. -/
theorem yields_comparisonTail_cons {op : Comparison} (hop : Marks ts op us)
    (hfirst : Yields (sum us) first vs) (hothers : Yields (comparisonTail vs) links ws) :
    Yields (comparisonTail ts) ((op, first) :: links) ws := by
  obtain ⟨_, hop⟩ := comparison?_of_marks hop
  rw [comparisonTail, hop]
  exact hfirst.bind fun _ => hothers.bind fun _ => ⟨_, rfl⟩

/-- A sum is parsed as its first term and the further ones, which are
then grouped to the left. -/
theorem yields_sum (hfirst : Yields (product ts) first us)
    (hothers : Yields (sumTail us) terms vs) : Yields (sum ts) (fromLeft first terms) vs := by
  rw [sum]
  exact hfirst.bind fun _ => hothers.bind fun _ => ⟨_, rfl⟩

/-- The terms of a sum end where neither of its signs is next. -/
theorem yields_sumTail_stop (hend : binding us ≠ 4) : Yields (sumTail us) [] us := by
  have hnone : BinaryOp.additive? (next us).token = none :=
    Option.eq_none_iff_forall_ne_some.2 fun _ h => hend (binding_of_additive h)
  rw [sumTail, (accept?_eq_none rfl).2 hnone]
  exact ⟨_, rfl⟩

/-- A sign between terms goes on with a product. -/
theorem yields_sumTail_cons {op : BinaryOp} (ht : BinaryOp.additive? t.token = some op)
    (hfirst : Yields (product ts) first us) (hothers : Yields (sumTail us) terms vs) :
    Yields (sumTail (t :: ts)) ((op, first) :: terms) vs := by
  rw [sumTail, accept?_cons ht]
  exact hfirst.bind fun _ => hothers.bind fun _ => ⟨_, rfl⟩

/-- A product is parsed as its first factor and the further ones,
grouped to the left as well. -/
theorem yields_product (hfirst : Yields (factor ts) first us)
    (hothers : Yields (productTail us) terms vs) :
    Yields (product ts) (fromLeft first terms) vs := by
  rw [product]
  exact hfirst.bind fun _ => hothers.bind fun _ => ⟨_, rfl⟩

/-- The factors of a product end where none of its symbols is next. -/
theorem yields_productTail_stop (hend : binding us ≠ 3) : Yields (productTail us) [] us := by
  have hnone : BinaryOp.multiplicative? (next us).token = none :=
    Option.eq_none_iff_forall_ne_some.2 fun _ h => hend (binding_of_multiplicative h)
  rw [productTail, (accept?_eq_none rfl).2 hnone]
  exact ⟨_, rfl⟩

/-- A symbol between factors goes on with a factor. -/
theorem yields_productTail_cons {op : BinaryOp}
    (ht : BinaryOp.multiplicative? t.token = some op) (hfirst : Yields (factor ts) first us)
    (hothers : Yields (productTail us) terms vs) :
    Yields (productTail (t :: ts)) ((op, first) :: terms) vs := by
  rw [productTail, accept?_cons ht]
  exact hfirst.bind fun _ => hothers.bind fun _ => ⟨_, rfl⟩

/-- A sign is parsed as that of the factor behind it. -/
theorem yields_factor_signed {op : UnaryOp} (ht : UnaryOp.sign? t.token = some op)
    (h : Yields (factor ts) e us) : Yields (factor (t :: ts)) (.unary op e) us := by
  rw [factor, accept?_cons ht]
  exact h.bind fun _ => ⟨_, rfl⟩

/-- Without a sign in front a factor is a power. -/
theorem yields_factor_unsigned (h : Yields (power ts) e us)
    (hstart : UnaryOp.sign? (next ts).token = none) : Yields (factor ts) e us := by
  rw [factor, (accept?_eq_none rfl).2 hstart]
  exact h

/-- An atom with its suffixes is a power by itself if no exponent
follows. -/
theorem yields_power_base (hfirst : Yields (atom ts) first us)
    (hwhole : Yields (suffixes first us) whole vs) (hend : binding vs ≠ 2) :
    Yields (power ts) whole vs := by
  rw [power]
  refine hfirst.bind fun _ => hwhole.bind fun _ => ?_
  dsimp only
  rw [after?_eq_none_of_binding (by decide) (fun ht => by rw [binding, ht]) hend]
  exact ⟨_, rfl⟩

/-- An exponent is a factor, so it may have a sign and be a power
itself. -/
theorem yields_power (hfirst : Yields (atom ts) first us)
    (hwhole : Yields (suffixes first us) whole (t :: vs)) (ht : t.token = .symbol .power)
    (hexponent : Yields (factor vs) exponent ws) :
    Yields (power ts) (.binary .pow whole exponent) ws := by
  rw [power]
  refine hfirst.bind fun _ => hwhole.bind fun _ => ?_
  dsimp only
  rw [after?_cons ht]
  exact hexponent.bind fun _ => ⟨_, rfl⟩

/-- The suffixes end where neither a parenthesis nor a bracket is next. -/
theorem yields_suffixes_stop (hend : binding us ≠ 1) : Yields (suffixes e us) e us := by
  rw [suffixes, after?_eq_none_of_binding (by decide) (fun ht => by rw [binding, ht]) hend]
  dsimp only
  rw [after?_eq_none_of_binding (by decide) (fun ht => by rw [binding, ht]) hend]
  exact ⟨_, rfl⟩

/-- Arguments in parentheses call what is before them, and more suffixes
may follow. -/
theorem yields_suffixes_call (ht : t.token = .symbol .openParen)
    (harguments : Yields (sequence .closeParen ts) es us)
    (hwhole : Yields (suffixes (.call e es t.position) us) whole vs) :
    Yields (suffixes e (t :: ts)) whole vs := by
  rw [suffixes, after?_cons ht]
  exact harguments.bind fun _ => hwhole.bind fun _ => ⟨_, rfl⟩

/-- A key in brackets looks up in what is before it, and more suffixes
may follow. -/
theorem yields_suffixes_subscript (ht : t.token = .symbol .openBracket)
    (hindex : Yields (expression ts) index (u :: us)) (hu : u.token = .symbol .closeBracket)
    (hwhole : Yields (suffixes (.subscript e index t.position) us) whole vs) :
    Yields (suffixes e (t :: ts)) whole vs := by
  have hparen : after? (.symbol .openParen) (t :: ts) = none :=
    (after?_eq_none (by decide)).2 (by simp [next, ht])
  rw [suffixes, hparen]
  dsimp only
  rw [after?_cons ht]
  refine hindex.bind fun _ => ?_
  dsimp only
  rw [expect_cons hu]
  exact hwhole.bind fun _ => ⟨_, rfl⟩

/-- Where no reserved word is next, none is refused. -/
theorem refuseReserved_of_eq_none (h : reserved? (next us).token = none) :
    refuseReserved us = .ok () := by
  rw [refuseReserved, h]

/-- A closing symbol ends the items, also where there are none or where
a comma came last. -/
theorem yields_sequence_close (ht : t.token = .symbol close) :
    Yields (sequence close (t :: ts)) [] ts := by
  rw [sequence, after?_cons ht]
  exact ⟨_, rfl⟩

/-- An item with the closing symbol behind it is the last one. -/
theorem yields_sequence_last (h : Yields (expression ts) e (t :: us))
    (ht : t.token = .symbol close) (hstart : (next ts).token ≠ .symbol close)
    (hclose : close ≠ .comma) : Yields (sequence close ts) [e] us := by
  have hcomma : after? (.symbol .comma) (t :: us) = none :=
    (after?_eq_none (by decide)).2 (by simp [next, ht, hclose])
  rw [sequence, (after?_eq_none (by simp)).2 hstart]
  refine h.bind fun _ => ?_
  dsimp only
  rw [refuseReserved_of_eq_none (by simp [next, ht, reserved?]), hcomma, expect_cons ht]
  exact ⟨_, rfl⟩

/-- An item with a comma behind it has others after it, or the closing
symbol. -/
theorem yields_sequence_item (h : Yields (expression ts) e (t :: us))
    (ht : t.token = .symbol .comma) (hes : Yields (sequence close us) es vs)
    (hstart : (next ts).token ≠ .symbol close) : Yields (sequence close ts) (e :: es) vs := by
  rw [sequence, (after?_eq_none (by simp)).2 hstart]
  refine h.bind fun _ => ?_
  dsimp only
  rw [refuseReserved_of_eq_none (by simp [next, ht, reserved?]), after?_cons ht]
  exact hes.bind fun _ => ⟨_, rfl⟩

/-- What starts with neither a parenthesis nor a bracket is a literal or
a name. -/
theorem yields_atom_leaf (h : Yields (leaf ts) e us)
    (hparen : (next ts).token ≠ .symbol .openParen)
    (hbracket : (next ts).token ≠ .symbol .openBracket) : Yields (atom ts) e us := by
  rw [atom, (after?_eq_none (by decide)).2 hparen]
  dsimp only
  rw [(after?_eq_none (by decide)).2 hbracket]
  exact h

/-- A literal is an atom by itself. -/
theorem yields_atom_literal {v : Value} (ht : t.token.literal? = some v) :
    Yields (atom (t :: ts)) (.literal v) ts := by
  refine yields_atom_leaf ?_ (fun h => ?_) fun h => ?_
  · rw [leaf, accept?_cons ht]
    exact ⟨_, rfl⟩
  · rw [show t.token = _ from h] at ht
    cases ht
  · rw [show t.token = _ from h] at ht
    cases ht

/-- A name is an atom, with its points taken apart into members. -/
theorem yields_atom_name {path : String} (ht : t.token = .name path) :
    Yields (atom (t :: ts)) (dotted path t.position) ts := by
  have hliteral : accept? Token.literal? (t :: ts) = none :=
    (accept?_eq_none rfl).2 (by simp [next, ht, Token.literal?])
  have hname : accept? name? (t :: ts) = some (path, ⟨ts, Nat.lt_succ_self _⟩) :=
    accept?_cons (by rw [ht, name?])
  refine yields_atom_leaf ?_ (by simp [next, ht]) (by simp [next, ht])
  rw [leaf, hliteral, hname]
  exact ⟨_, rfl⟩

/-- A pair of parentheses with nothing inside is the empty tuple. -/
theorem yields_atom_unit (ht : t.token = .symbol .openParen)
    (hu : u.token = .symbol .closeParen) : Yields (atom (t :: u :: ts)) (.tuple []) ts := by
  rw [atom, after?_cons ht]
  dsimp only
  rw [after?_cons hu]
  exact ⟨_, rfl⟩

/-- An expression in parentheses is an atom, and has no node of its own. -/
theorem yields_atom_group (ht : t.token = .symbol .openParen)
    (h : Yields (expression ts) e (u :: us)) (hu : u.token = .symbol .closeParen)
    (hstart : (next ts).token ≠ .symbol .closeParen) : Yields (atom (t :: ts)) e us := by
  rw [atom, after?_cons ht]
  dsimp only
  rw [(after?_eq_none (by decide)).2 hstart]
  refine h.bind fun _ => ?_
  dsimp only
  rw [after?_cons hu]
  exact ⟨_, rfl⟩

/-- With a comma behind the first expression, parentheses hold a tuple. -/
theorem yields_atom_tuple (ht : t.token = .symbol .openParen)
    (h : Yields (expression ts) e (u :: us)) (hu : u.token = .symbol .comma)
    (hes : Yields (sequence .closeParen us) es vs)
    (hstart : (next ts).token ≠ .symbol .closeParen) :
    Yields (atom (t :: ts)) (.tuple (e :: es)) vs := by
  have hclose : after? (.symbol .closeParen) (u :: us) = none :=
    (after?_eq_none (by decide)).2 (by simp [next, hu])
  rw [atom, after?_cons ht]
  dsimp only
  rw [(after?_eq_none (by decide)).2 hstart]
  refine h.bind fun _ => ?_
  dsimp only
  rw [hclose, expect_cons hu]
  exact hes.bind fun _ => ⟨_, rfl⟩

/-- Brackets hold a list. -/
theorem yields_atom_list (ht : t.token = .symbol .openBracket)
    (hes : Yields (sequence .closeBracket ts) es us) :
    Yields (atom (t :: ts)) (.list es) us := by
  have hparen : after? (.symbol .openParen) (t :: ts) = none :=
    (after?_eq_none (by decide)).2 (by simp [next, ht])
  rw [atom, hparen]
  dsimp only
  rw [after?_cons ht]
  exact hes.bind fun _ => ⟨_, rfl⟩

/-! ### The parser follows derivations -/

/-- The level up to which the token after a phrase must not bind, for
the parser to end the phrase where its derivation does. Sums, products
and suffixed atoms go on with a tail, so that only their last part is
to be closed. -/
def Phrase.level : {α : Type} → Phrase α → Nat
  | _, .expression => 8
  | _, .disjunction | _, .disjuncts => 7
  | _, .conjunction | _, .conjuncts => 6
  | _, .negation | _, .comparison | _, .links => 5
  | _, .sum => 3
  | _, .product | _, .factor | _, .power => 2
  | _, .suffixed | _, .sequence _ | _, .atom => 0

/-- What the parser makes of a phrase that a derivation reads. -/
def Phrase.Parses : {α : Type} → Phrase α → List Located → α → List Located → Prop
  | _, .expression, ts, e, us => Yields (Script.expression ts) e us
  | _, .disjunction, ts, e, us => Yields (Script.disjunction ts) e us
  | _, .disjuncts, ts, es, us => ∃ first rest others, es = first :: others ∧
      Yields (Script.conjunction ts) first rest ∧ Yields (orTail rest) others us
  | _, .conjunction, ts, e, us => Yields (Script.conjunction ts) e us
  | _, .conjuncts, ts, es, us => ∃ first rest others, es = first :: others ∧
      Yields (Script.negation ts) first rest ∧ Yields (andTail rest) others us
  | _, .negation, ts, e, us => Yields (Script.negation ts) e us
  | _, .comparison, ts, e, us => Yields (Script.comparison ts) e us
  | _, .links, ts, links, us => 4 < binding ts ∧ Yields (comparisonTail ts) links us
  | _, .sum, ts, e, us => ∀ terms vs, Yields (sumTail us) terms vs →
      Yields (Script.sum ts) (fromLeft e terms) vs
  | _, .product, ts, e, us => ∀ terms vs, Yields (productTail us) terms vs →
      Yields (Script.product ts) (fromLeft e terms) vs
  | _, .factor, ts, e, us => Yields (Script.factor ts) e us
  | _, .power, ts, e, us => Yields (Script.power ts) e us
  | _, .suffixed, ts, e, us => ∀ whole vs, Yields (suffixes e us) whole vs →
      ∃ first rest, Yields (Script.atom ts) first rest ∧ Yields (suffixes first rest) whole vs
  | _, .sequence close, ts, es, us => close = .closeParen ∨ close = .closeBracket →
      Yields (Script.sequence close ts) es us
  | _, .atom, ts, e, us => Yields (Script.atom ts) e us

/-- The parser takes a phrase of the grammar as it is, if the token
behind it binds more loosely than the phrase. The induction is on the
derivation. Where the grammar groups to the left, the case carries the
tail that the parser goes on with. -/
theorem Reads.parses {α : Type} {phrase : Phrase α} {ts us : List Located} {node : α}
    (h : Reads phrase ts node us) (hend : phrase.level < binding us) :
    phrase.Parses ts node us := by
  -- The first part of a chain ends before a token of the chain's own level,
  -- which is above the level of the part; the last one ends with the whole.
  induction h with
  | plain _ ih =>
    simp only [Phrase.level] at hend ih
    exact yields_expression_plain (ih (by omega)) (by omega)
  | choice _ ht _ hu _ ihbody ihtest ihotherwise =>
    exact yields_expression_choice (ihbody (by simp [Phrase.level, binding, next, ht])) ht
      (ihtest (by simp [Phrase.level, binding, next, hu])) hu (ihotherwise hend)
  | disjunction _ ih =>
    obtain ⟨first, rest, others, hes, hfirst, hothers⟩ := ih hend
    subst hes
    exact yields_disjunction hfirst hothers
  | disjunct _ ih =>
    simp only [Phrase.level] at hend ih
    exact ⟨_, _, [], rfl, ih (by omega), yields_orTail_stop (by omega)⟩
  | or _ ht _ ihfirst ihothers =>
    obtain ⟨first, rest, others, hes, hfirst, hothers⟩ := ihothers hend
    subst hes
    exact ⟨_, _, _, rfl, ihfirst (by simp [Phrase.level, binding, next, ht]),
      yields_orTail_cons ht hfirst hothers⟩
  | conjunction _ ih =>
    obtain ⟨first, rest, others, hes, hfirst, hothers⟩ := ih hend
    subst hes
    exact yields_conjunction hfirst hothers
  | conjunct _ ih =>
    simp only [Phrase.level] at hend ih
    exact ⟨_, _, [], rfl, ih (by omega), yields_andTail_stop (by omega)⟩
  | and _ ht _ ihfirst ihothers =>
    obtain ⟨first, rest, others, hes, hfirst, hothers⟩ := ihothers hend
    subst hes
    exact ⟨_, _, _, rfl, ihfirst (by simp [Phrase.level, binding, next, ht]),
      yields_andTail_cons ht hfirst hothers⟩
  | not ht _ ih => exact yields_negation_not ht (ih hend)
  | positive h ih => exact yields_negation_positive (ih hend) (h.next_ne (by decide))
  | comparison _ _ ihfirst ihothers =>
    obtain ⟨hloose, hothers⟩ := ihothers hend
    simp only [Phrase.level] at ihfirst
    have hfirst := ihfirst (by omega) [] _ (yields_sumTail_stop (by omega))
    exact yields_comparison hfirst hothers
  | unlinked =>
    simp only [Phrase.level] at hend
    exact ⟨by omega, yields_comparisonTail_stop (by omega)⟩
  | link hop _ _ ihfirst ihothers =>
    obtain ⟨hloose, hothers⟩ := ihothers hend
    simp only [Phrase.level] at ihfirst
    have hfirst := ihfirst (by omega) [] _ (yields_sumTail_stop (by omega))
    exact ⟨by rw [binding_of_marks hop]; decide, yields_comparisonTail_cons hop hfirst hothers⟩
  | term _ ih =>
    intro terms vs hterms
    simp only [Phrase.level] at hend ih
    exact yields_sum (ih (by omega) [] _ (yields_productTail_stop (by omega))) hterms
  | @add _ us _ t _ _ _ _ ht _ ihleft ihright =>
    intro terms vs hterms
    simp only [Phrase.level] at hend ihleft ihright
    have hright := ihright (by omega) [] _ (yields_productTail_stop (by omega))
    have hbinding : binding (t :: us) = 4 := binding_of_additive ht
    exact ihleft (by omega) _ _ (yields_sumTail_cons ht hright hterms)
  | factor _ ih =>
    intro terms vs hterms
    exact yields_product (ih hend) hterms
  | @multiply _ us _ t _ _ _ _ ht _ ihleft ihright =>
    intro terms vs hterms
    simp only [Phrase.level] at ihleft
    have hbinding : binding (t :: us) = 3 := binding_of_multiplicative ht
    exact ihleft (by omega) _ _ (yields_productTail_cons ht (ihright hend) hterms)
  | signed ht _ ih => exact yields_factor_signed ht (ih hend)
  | unsigned h ih =>
    refine yields_factor_unsigned (ih hend) (Option.eq_none_iff_forall_ne_some.2 fun op hop => ?_)
    have hlead := h.lead_le
    rw [Token.lead_of_sign hop] at hlead
    exact absurd hlead (by decide)
  | base _ ih =>
    simp only [Phrase.level] at hend ih
    obtain ⟨first, rest, hfirst, hwhole⟩ := ih (by omega) _ _ (yields_suffixes_stop (by omega))
    exact yields_power_base hfirst hwhole (by omega)
  | @power _ us _ t _ _ _ ht _ ihbase ihexponent =>
    have hbinding : binding (t :: us) = 2 := by simp [binding, next, ht]
    simp only [Phrase.level] at ihbase
    obtain ⟨first, rest, hfirst, hwhole⟩ :=
      ihbase (by omega) _ _ (yields_suffixes_stop (by omega))
    exact yields_power hfirst hwhole ht (ihexponent hend)
  | atom _ ih =>
    intro whole vs hwhole
    exact ⟨_, _, ih hend, hwhole⟩
  | call _ ht _ ihfunction iharguments =>
    intro whole vs hwhole
    exact ihfunction (binding_pos _) _ _
      (yields_suffixes_call ht (iharguments (binding_pos _) (.inl rfl)) hwhole)
  | subscript _ ht _ hu ihcontainer ihindex =>
    intro whole vs hwhole
    have hindex := ihindex (by simp [Phrase.level, binding, next, hu])
    exact ihcontainer (binding_pos _) _ _ (yields_suffixes_subscript ht hindex hu hwhole)
  | close ht =>
    intro _
    exact yields_sequence_close ht
  | @last _ us t close _ h ht ih =>
    intro hclose
    have hbinding : binding (t :: us) = 9 := by
      rcases hclose with hclose | hclose <;> simp [binding, next, ht, hclose]
    have hstart : Phrase.expression.lead < (Token.symbol close).lead := by
      rcases hclose with hclose | hclose <;> subst hclose <;> decide
    have hcomma : close ≠ .comma := by
      rcases hclose with hclose | hclose <;> subst hclose <;> decide
    simp only [Phrase.level] at ih
    exact yields_sequence_last (ih (by omega)) ht (h.next_ne hstart) hcomma
  | @item _ us _ t close _ _ h ht _ ih ihes =>
    intro hclose
    have hbinding : binding (t :: us) = 9 := by simp [binding, next, ht]
    have hstart : Phrase.expression.lead < (Token.symbol close).lead := by
      rcases hclose with hclose | hclose <;> subst hclose <;> decide
    simp only [Phrase.level] at ih
    exact yields_sequence_item (ih (by omega)) ht (ihes (binding_pos _) hclose)
      (h.next_ne hstart)
  | literal ht => exact yields_atom_literal ht
  | name ht => exact yields_atom_name ht
  | unit ht hu => exact yields_atom_unit ht hu
  | group ht h hu ih =>
    exact yields_atom_group ht (ih (by simp [Phrase.level, binding, next, hu])) hu
      (h.next_ne (by decide))
  | tuple ht h hu _ ih ihes =>
    exact yields_atom_tuple ht (ih (by simp [Phrase.level, binding, next, hu])) hu
      (ihes (binding_pos _) (.inl rfl)) (h.next_ne (by decide))
  | list ht _ ih => exact yields_atom_list ht (ih (binding_pos _) (.inr rfl))

/-- An expression is read to its end when nothing goes on with it. -/
theorem Reads.yields_expression {e : Expr} (h : Reads .expression ts e us)
    (hend : binding us = 9) : Yields (expression ts) e us :=
  h.parses (by rw [hend]; decide)

/-! ### Statements -/

/-- Statements are divided by line breaks and by semicolons. -/
theorem isSeparator_iff {token : Token} :
    isSeparator token = true ↔ token = .newline ∨ token = .symbol .semicolon := by
  unfold isSeparator
  split <;> simp_all

/-- What divides or ends statements goes on with no phrase. -/
theorem binding_of_ends (h : (next us).token = .endOfInput ∨ isSeparator (next us).token = true) :
    binding us = 9 := by
  rw [isSeparator_iff] at h
  rcases h with hend | hnewline | hsemicolon
  · rw [binding, hend]
  · rw [binding, hnewline]
  · rw [binding, hsemicolon]

/-- At the end of a statement no assignment is next. -/
theorem assignment?_of_ends
    (h : (next us).token = .endOfInput ∨ isSeparator (next us).token = true) :
    accept? BinaryOp.assignment? us = none := by
  rw [accept?_eq_none rfl]
  rw [isSeparator_iff] at h
  rcases h with hend | hnewline | hsemicolon
  · rw [hend]
    rfl
  · rw [hnewline]
    rfl
  · rw [hsemicolon]
    rfl

/-- No expression goes on with an assignment symbol, so a target ends in
front of it. -/
theorem binding_of_assignment {op : Option BinaryOp}
    (h : BinaryOp.assignment? (next us).token = some op) : binding us = 9 := by
  unfold BinaryOp.assignment? at h
  split at h
  case h_8 => cases h
  all_goals
    rename_i htoken
    rw [binding, htoken]

/-- A statement starts as its first expression does. -/
theorem ReadsStatement.lead_le {s : Statement} (h : ReadsStatement ts s us) :
    (next ts).token.lead ≤ 2 := by
  cases h with
  | expression he => exact he.lead_le
  | assign htarget _ _ => exact htarget.lead_le

/-- What is left after a statement is the end of what it was read from. -/
theorem ReadsStatement.suffix {s : Statement} (h : ReadsStatement ts s us) : us <:+ ts := by
  cases h with
  | expression he => exact he.suffix
  | assign htarget _ hvalue => exact hvalue.suffix.trans (suffix_of_cons_suffix htarget.suffix)

/-- The parser takes a statement of the grammar as it is, if a separator
or the end of the input is behind it. -/
theorem ReadsStatement.yields {s : Statement} (h : ReadsStatement ts s us)
    (hnext : (next us).token = .endOfInput ∨ isSeparator (next us).token = true) :
    Yields (statement ts) s us := by
  have hunreserved : reserved? (next ts).token = none := by
    cases htoken : (next ts).token with
    | reserved word =>
      have hlead := h.lead_le
      rw [htoken] at hlead
      cases Nat.not_succ_le_self 2 hlead
    | _ => rfl
  rw [statement, (accept?_eq_none rfl).2 hunreserved]
  cases h with
  | expression he =>
    refine (he.yields_expression (binding_of_ends hnext)).bind fun _ => ?_
    dsimp only
    rw [assignment?_of_ends hnext]
    exact ⟨_, rfl⟩
  | assign htarget ht hvalue =>
    refine (htarget.yields_expression (binding_of_assignment ht)).bind fun _ => ?_
    dsimp only
    rw [accept?_cons ht]
    exact (hvalue.yields_expression (binding_of_ends hnext)).bind fun _ => ⟨_, rfl⟩

/-- Separators in front of the statements do not matter. -/
theorem statements_cons_separator (ht : isSeparator t.token = true) :
    statements (t :: ts) = statements ts := by
  have hskip : skipSeparators (t :: ts) = skipSeparators ts := by
    rw [skipSeparators, if_pos ht]
  rw [statements, hskip, ← statements]

/-- Where no separator is next, none is skipped. -/
theorem skipSeparators_eq_self (h : isSeparator (next ts).token = false) :
    skipSeparators ts = ts := by
  cases ts with
  | nil => rfl
  | cons t ts => exact if_neg (by rw [show isSeparator t.token = false from h]; decide)

/-- Skipping separators leaves the end of the tokens. -/
theorem skipSeparators_suffix (ts : List Located) : skipSeparators ts <:+ ts := by
  induction ts with
  | nil => exact List.suffix_rfl
  | cons t ts ih =>
    unfold skipSeparators
    split
    · exact ih.trans (List.suffix_cons t ts)
    · exact List.suffix_rfl

/-- A token that a statement starts with neither divides nor ends
statements. -/
theorem ReadsStatement.starts {s : Statement} (h : ReadsStatement ts s us) :
    (next ts).token ≠ .endOfInput ∧ isSeparator (next ts).token = false := by
  have hlead := h.lead_le
  constructor
  · intro hend
    rw [hend] at hlead
    cases Nat.not_succ_le_self 2 hlead
  · refine Bool.eq_false_iff.2 fun hseparator => ?_
    rcases isSeparator_iff.1 hseparator with htoken | htoken
    · rw [htoken] at hlead
      cases Nat.not_succ_le_self 2 hlead
    · rw [htoken] at hlead
      cases Nat.not_succ_le_self 2 hlead

/-- The parser takes a script of the grammar as it is, statement by
statement. -/
theorem ReadsScript.statements_eq {body : List Statement} (h : ReadsScript ts body) :
    statements ts = .ok body := by
  induction h with
  | done hend =>
    rw [statements, skipSeparators_eq_self (by rw [hend]; rfl), if_pos hend]
  | separator ht _ ih => rw [statements_cons_separator ht, ih]
  | statement hs hnext _ ih =>
    obtain ⟨hmore, hstart⟩ := hs.starts
    obtain ⟨_, hs⟩ := hs.yields hnext
    rw [statements, skipSeparators_eq_self hstart, if_neg hmore, hs]
    show (if _ then _ else _) = _
    rw [if_pos hnext, ih]
    rfl

/-- A forbidden statement has its word among its tokens. -/
theorem reserved_of_statement {p : Parsed Statement ts.length} (h : statement ts = .ok p)
    {word : String} {position : Position} (hnode : p.node = .forbidden word position) :
    ∃ t ∈ ts, t.token = .reserved word := by
  unfold statement at h
  split at h
  · rename_i found rest hrest hfound
    cases h
    cases hnode
    obtain ⟨t, hts, ht⟩ := of_accept? hfound
    refine ⟨t, hts ▸ List.mem_cons_self, ?_⟩
    unfold reserved? at ht
    split at ht
    · rename_i htoken
      cases ht
      exact htoken
    · cases ht
  · obtain ⟨first, _, h⟩ := bind_eq_ok.1 h
    split at h
    · obtain ⟨value, _, h⟩ := bind_eq_ok.1 h
      cases h
      cases hnode
    · cases h
      cases hnode

/-- Without reserved words no statement is forbidden. -/
theorem not_forbidden_of_statements {body : List Statement} (h : statements ts = .ok body)
    (hplain : ∀ t ∈ ts, ∀ word, t.token ≠ .reserved word) :
    ∀ s ∈ body, ∀ word position, s ≠ .forbidden word position := by
  induction ts using statements.induct generalizing body with
  | case1 ts hend =>
    rw [statements, if_pos hend] at h
    cases h
    exact fun s hs => absurd hs List.not_mem_nil
  | case2 ts hmore ih =>
    rw [statements, if_neg hmore] at h
    obtain ⟨first, hfirst, h⟩ := bind_eq_ok.1 h
    dsimp only at h
    split at h
    · obtain ⟨others, hothers, h⟩ := bind_eq_ok.1 h
      cases h
      have hskipped := fun t ht => hplain t ((skipSeparators_suffix ts).subset ht)
      have hallowed : ∀ word position, first.node ≠ .forbidden word position := by
        intro word position hforbidden
        obtain ⟨t, ht, hword⟩ := reserved_of_statement hfirst hforbidden
        exact hskipped t ht word hword
      -- A forbidden statement starts with its reserved word, and there is
      -- none.
      have hreads : ReadsStatement (skipSeparators ts) first.node first.rest := by
        rcases reads_statement hfirst with hreads | ⟨word, position, hforbidden⟩
        · exact hreads
        · exact absurd hforbidden (hallowed word position)
      have hrest := ih first hothers fun t ht => hskipped t (hreads.suffix.subset ht)
      exact List.forall_mem_cons.2 ⟨hallowed, hrest⟩
    · cases h

/-! ### Scripts -/

/-- A script is its statements, and has at least one. -/
theorem ofTokens_eq_ok_iff {script : Script} :
    ofTokens ts = .ok script ↔ statements ts = .ok script.body ∧ script.body ≠ [] := by
  unfold ofTokens
  rw [bind_eq_ok]
  constructor
  · rintro ⟨body, hbody, h⟩
    split at h
    · cases h
    · rename_i hne
      cases h
      exact ⟨hbody, hne⟩
  · rintro ⟨hbody, hne⟩
    refine ⟨script.body, hbody, ?_⟩
    split
    · rename_i hnil
      exact absurd hnil hne
    · rfl

/-- A text is read from its tokens. -/
theorem parse_eq_ofTokens {source : String} {tokens : List Located}
    (htokens : tokenize .script source = .ok tokens) : parse source = ofTokens tokens := by
  rw [parse, htokens]
  rfl

/-- A text without reserved words is a script exactly when its tokens
derive from the grammar, with at least one statement; the script is the
tree of the derivation. -/
theorem parse_eq_ok_iff {source : String} {tokens : List Located}
    (htokens : tokenize .script source = .ok tokens)
    (hplain : ∀ t ∈ tokens, ∀ word, t.token ≠ .reserved word) (script : Script) :
    parse source = .ok script ↔ ReadsScript tokens script.body ∧ script.body ≠ [] := by
  rw [parse_eq_ofTokens htokens, ofTokens_eq_ok_iff]
  refine and_congr_left fun _ => ⟨fun h => ?_, ReadsScript.statements_eq⟩
  exact reads_statements h (not_forbidden_of_statements h hplain)

/-- An assignment that adds one of two amounts. -/
def raiseSource : String :=
  "bet += 5 if not hot else units"

/-- Its tokens. -/
def raiseTokens : List Located :=
  [⟨.name "bet", ⟨1, 1⟩⟩, ⟨.symbol .plusAssign, ⟨1, 5⟩⟩, ⟨.int 5, ⟨1, 8⟩⟩,
    ⟨.keyword .ifThen, ⟨1, 10⟩⟩, ⟨.keyword .not, ⟨1, 13⟩⟩, ⟨.name "hot", ⟨1, 17⟩⟩,
    ⟨.keyword .otherwise, ⟨1, 21⟩⟩, ⟨.name "units", ⟨1, 26⟩⟩, ⟨.endOfInput, ⟨1, 31⟩⟩]

/-- A raise by one of two amounts. -/
def raise : Script :=
  { body := [
      .assign (.name "bet") (some .add)
        (.ifElse (.unary .not (.name "hot")) (.literal (.int 5)) (.name "units")) ⟨1, 1⟩] }

/-- The text is parsed as the script, and the grammar derives it. -/
theorem parse_raise :
    tokenize .script raiseSource = .ok raiseTokens ∧
      (∀ t ∈ raiseTokens, ∀ word, t.token ≠ .reserved word) ∧
      parse raiseSource = .ok raise ∧ ReadsScript raiseTokens raise.body ∧ raise.body ≠ [] := by
  have htokens : tokenize .script raiseSource = .ok raiseTokens := by
    decide +kernel
  have hplain : ∀ t ∈ raiseTokens, ∀ word, t.token ≠ .reserved word := by
    simp [raiseTokens]
  have hparse : parse raiseSource = .ok raise := by
    rw [parse_eq_ofTokens htokens]
    with_unfolding_all rfl
  exact ⟨htokens, hplain, hparse, (parse_eq_ok_iff htokens hplain raise).1 hparse⟩

end Script

end CrapsStrategy
