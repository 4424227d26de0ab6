import CrapsStrategy.Proofs.Condition.Grammar
import CrapsStrategy.Proofs.Script.Source
import CrapsStrategy.Script.Eval

/-!
# `CrapsStrategy.Proofs.Condition.Widening`: conditions as expressions

A condition has an expression of the wide dialect for it (`widened`),
and the words of the one are words of the other: `Derives.widen` goes
along the derivation of a condition and derives the expression from the
same tokens.

The two are evaluated differently. A connective of an expression has
the value of the operand that decides it, one of a condition is true or
false; a comparison without a result is a fault of an expression, and
false in a condition; a path stands for its value in an expression, and
for the truth of it in a condition. When the expression has a value, the
condition still has one of the same truth: `eval_of_widened`. The
induction needs more of what may stand beside a comparison, which looks
at the value itself. There a condition keeps the value of the expression
unless it is a connective.
-/

set_option autoImplicit false

namespace CrapsStrategy

namespace Condition

open TokenStream

/-! ### The expression of a condition -/

mutual

/-- A condition in the wide dialect. -/
def widened : Condition → Expr
  | literal v => .literal v
  | path text => .name text
  | not inner => .unary .not inner.widened
  | and parts => .logical .and (widenedAll parts)
  | or parts => .logical .or (widenedAll parts)
  | compare op left right => .compare left.widened [(op, right.widened)]

/-- The expressions of the parts of a connective. -/
def widenedAll : List Condition → List Expr
  | [] => []
  | c :: cs => c.widened :: widenedAll cs

end

/-! ### The same words -/

/-- A path without points is a name. -/
theorem dotted_of_plain {path : String} (h : '.' ∉ path.toList) (position : Position) :
    Script.dotted path position = .name path := by
  have hsegments : Lexer.segments path.toList = [path.toList] := List.splitOn_eq_singleton h
  rw [Script.dotted, hsegments]
  simp

/-- An atom is a sum of one term. -/
theorem sum_of_atom {ts us : List Located} {e : Expr} (h : Script.Reads .atom ts e us) :
    Script.Reads .sum ts e us :=
  .term (.factor (.unsigned (.base (.atom h))))

/-- The expressions of a phrase are what the wide dialect reads. -/
def Phrase.Widens : {α : Type} → Phrase α → List Located → α → List Located → Prop
  | _, .disjunction, ts, c, us => Script.Reads .disjunction ts c.widened us
  | _, .disjuncts, ts, cs, us => Script.Reads .disjuncts ts (widenedAll cs) us
  | _, .conjunction, ts, c, us => Script.Reads .conjunction ts c.widened us
  | _, .conjuncts, ts, cs, us => Script.Reads .conjuncts ts (widenedAll cs) us
  | _, .negation, ts, c, us => Script.Reads .negation ts c.widened us
  | _, .comparison, ts, c, us => Script.Reads .comparison ts c.widened us
  | _, .term, ts, c, us => Script.Reads .sum ts c.widened us

/-- A phrase of the narrow grammar is one of the wide grammar, on the
same tokens and with the expression of its tree. The tokens must be
plain: the wide grammar reads a dotted name as members, and no
expression has a reserved word in it. -/
theorem Derives.widen {α : Type} {phrase : Phrase α} {xs : List Located} {node : α}
    (h : Derives phrase xs node) (hplain : ∀ t ∈ xs, t.token.Plain) (us : List Located) :
    phrase.Widens (xs ++ us) node us := by
  induction h generalizing us with
  | onlyDisjunct _ ih | or _ ih => exact Script.Reads.disjunction (ih hplain us)
  | lastDisjunct _ ih => exact .disjunct (ih hplain us)
  | disjunct _ ht _ ih ihcs =>
    rw [List.forall_mem_append, List.forall_mem_cons] at hplain
    rw [List.append_assoc]
    exact .or (ih hplain.1 _) ht (ihcs hplain.2.2 us)
  | onlyConjunct _ ih | and _ ih => exact Script.Reads.conjunction (ih hplain us)
  | lastConjunct _ ih => exact .conjunct (ih hplain us)
  | conjunct _ ht _ ih ihcs =>
    rw [List.forall_mem_append, List.forall_mem_cons] at hplain
    rw [List.append_assoc]
    exact .and (ih hplain.1 _) ht (ihcs hplain.2.2 us)
  | not ht _ ih => exact .not ht (ih (List.forall_mem_cons.1 hplain).2 us)
  | positive _ ih => exact .positive (ih hplain us)
  | uncompared _ ih => exact Script.Reads.comparison (ih hplain us) .unlinked
  | compare _ ht _ ihleft ihright =>
    rw [List.forall_mem_append, List.forall_mem_cons] at hplain
    rw [List.append_assoc]
    have hlink := Script.Reads.link (.symbol ht) (ihright hplain.2.2 us) .unlinked
    exact Script.Reads.comparison (ihleft hplain.1 _) hlink
  | literal ht => exact sum_of_atom (.literal ht)
  | @path t _ ht =>
    -- With points in it the name would be read as members of members.
    have hpath := hplain t List.mem_cons_self
    rw [ht] at hpath
    have hname : Script.Reads .atom (t :: us) (Script.dotted _ t.position) us := .name ht
    rw [dotted_of_plain hpath] at hname
    exact sum_of_atom hname
  | group ht _ hu ih =>
    rw [List.forall_mem_cons, List.forall_mem_append] at hplain
    rw [List.cons_append, List.append_assoc]
    exact sum_of_atom (.group ht (.plain (ih hplain.2.1 _)) hu)

/-! ### The same truth -/

/-- No operand of a comparison is a connective, at any depth. -/
def SingleOperands (c : Condition) : Prop :=
  ∀ op left right, (compare op left right).Within c →
    left.connected? = none ∧ right.connected? = none

/-- A part has no more comparisons than the whole. -/
theorem SingleOperands.part {c whole : Condition} (h : whole.SingleOperands)
    (hpart : Part c whole) : c.SingleOperands :=
  fun op left right hcompare => h op left right (Relation.ReflTransGen.tail hcompare hpart)

/-- For single operands it is enough to look at the parts, and at the
condition itself if it is a comparison. -/
theorem singleOperands_of_parts {c : Condition}
    (hparts : ∀ part, Part part c → part.SingleOperands)
    (hc : ∀ op left right, c = compare op left right →
      left.connected? = none ∧ right.connected? = none) : c.SingleOperands := by
  intro op left right hcompare
  rcases within_iff.1 hcompare with heq | ⟨part, hpart, hcompare⟩
  · exact hc op left right heq.symm
  · exact hparts part hpart op left right hcompare

/-- Whenever the expression has a value, the condition has one of the
same truth. -/
def Follows (scope : Scope) (c : Condition) : Prop :=
  ∀ v, c.widened.eval scope = .ok v → ∃ w, c.eval scope = .ok w ∧ w.truthy = v.truthy

/-- Whenever the expression has a value, a comparison sees it of the
condition. -/
def FollowsBeside (scope : Scope) (c : Condition) : Prop :=
  ∀ v, c.widened.eval scope = .ok v → operand scope c (c.eval scope) = .ok v

/-- A conjunction holds exactly when the operand that decides it does,
if all operands before `parts` hold. -/
theorem evalAll_of_evalLogical {scope : Scope} {parts : List Condition}
    (hparts : ∀ c ∈ parts, c.Follows scope) {last v : Value} (hlast : last.truthy = true)
    (h : Expr.evalLogical scope .and last (widenedAll parts) = .ok v) :
    evalAll scope parts = .ok v.truthy := by
  induction parts generalizing last with
  | nil =>
    cases h
    rw [evalAll, hlast]
  | cons c cs ih =>
    rw [List.forall_mem_cons] at hparts
    obtain ⟨u, hu, h⟩ := bind_eq_ok.1 h
    obtain ⟨w, hw, htruth⟩ := hparts.1 u hu
    rw [evalAll, hw]
    show (if w.truthy = true then evalAll scope cs else .ok false) = .ok v.truthy
    rw [htruth]
    cases hu : u.truthy with
    | true =>
      rw [LogicalOp.stopsAt, hu, if_neg (by decide)] at h
      exact ih hparts.2 hu h
    | false =>
      rw [LogicalOp.stopsAt, hu, if_pos (by decide)] at h
      cases h
      rw [hu]
      rfl

/-- A disjunction holds exactly when the operand that decides it does,
if no operand before `parts` holds. -/
theorem evalAny_of_evalLogical {scope : Scope} {parts : List Condition}
    (hparts : ∀ c ∈ parts, c.Follows scope) {last v : Value} (hlast : last.truthy = false)
    (h : Expr.evalLogical scope .or last (widenedAll parts) = .ok v) :
    evalAny scope parts = .ok v.truthy := by
  induction parts generalizing last with
  | nil =>
    cases h
    rw [evalAny, hlast]
  | cons c cs ih =>
    rw [List.forall_mem_cons] at hparts
    obtain ⟨u, hu, h⟩ := bind_eq_ok.1 h
    obtain ⟨w, hw, htruth⟩ := hparts.1 u hu
    rw [evalAny, hw]
    show (if w.truthy = true then .ok true else evalAny scope cs) = .ok v.truthy
    rw [htruth]
    cases hu : u.truthy with
    | true =>
      rw [LogicalOp.stopsAt, hu, if_pos rfl] at h
      cases h
      rw [hu]
      rfl
    | false =>
      rw [LogicalOp.stopsAt, hu, if_neg (by decide)] at h
      exact ih hparts.2 hu h

/-- A comparison of an expression that has a value has a result. -/
theorem eq_of_evalCompare {scope : Scope} {op : Comparison} {left right : Expr} {v : Value}
    (h : (Expr.compare left [(op, right)]).eval scope = .ok v) :
    ∃ l r b, left.eval scope = .ok l ∧ right.eval scope = .ok r ∧ op.test? l r = some b ∧
      v = .bool b := by
  obtain ⟨l, hl, h⟩ := bind_eq_ok.1 h
  obtain ⟨holds, hchain, h⟩ := bind_eq_ok.1 h
  cases h
  obtain ⟨r, hr, hchain⟩ := bind_eq_ok.1 hchain
  refine ⟨l, r, holds, hl, hr, ?_, rfl⟩
  obtain ⟨b, hb, hchain⟩ := bind_eq_ok.1 hchain
  unfold compareValues at hb
  split at hb
  · rename_i htest
    cases hb
    rw [htest]
    cases b with
    | true => cases hchain; rfl
    | false => cases hchain; rfl
  · cases hb

/-- A condition that has the value of its expression follows it, beside
a comparison as well. -/
theorem follows_of_eval_eq {scope : Scope} {c : Condition} (hc : ∀ text, c ≠ path text)
    (h : ∀ v, c.widened.eval scope = .ok v → c.eval scope = .ok v) :
    c.Follows scope ∧ (c.connected? = none → c.FollowsBeside scope) := by
  refine ⟨fun v hv => ⟨v, h v hv, rfl⟩, fun _ v hv => ?_⟩
  rw [h v hv]
  cases c with
  | path text => exact absurd rfl (hc text)
  | _ => rfl

/-- A path has the truth of its value, and beside a comparison the value
itself. -/
theorem follows_path (scope : Scope) (text : String) :
    (path text).Follows scope ∧ (path text).FollowsBeside scope := by
  have hscope : ∀ v, (path text).widened.eval scope = .ok v → scope text = .ok v := by
    intro v hv
    rw [widened, Expr.eval, Scope.named] at hv
    split at hv
    · rename_i u hu
      rw [hu, hv]
    · cases hv
  refine ⟨fun v hv => ⟨.bool v.truthy, ?_, rfl⟩, hscope⟩
  rw [eval, hscope v hv]
  rfl

/-- The truth of the whole, and the value of what is no connective. -/
theorem eval_of_widened {c : Condition} (hproper : c.Proper) (hoperands : c.SingleOperands)
    (scope : Scope) :
    c.Follows scope ∧ (c.connected? = none → c.FollowsBeside scope) := by
  -- Truth alone does not go through a comparison, nor values through a
  -- connective: each needs the other of its parts.
  induction c using part_induction with
  | whole whole ih =>
    have hparts : ∀ c, Part c whole →
        c.Follows scope ∧ (c.connected? = none → c.FollowsBeside scope) :=
      fun c hc => ih c hc (hproper.part hc) (hoperands.part hc)
    cases whole with
    | literal v => exact follows_of_eval_eq nofun fun _ h => h
    | path text =>
      obtain ⟨htruth, hvalue⟩ := follows_path scope text
      exact ⟨htruth, fun _ => hvalue⟩
    | not inner =>
      refine follows_of_eval_eq nofun fun v hv => ?_
      obtain ⟨u, hu, hv⟩ := bind_eq_ok.1 hv
      cases hv
      obtain ⟨w, hw, htruth⟩ := (hparts inner (.inner inner)).1 u hu
      rw [eval, hw, ← htruth]
      rfl
    | and parts =>
      refine ⟨fun v hv => ⟨.bool v.truthy, ?_, rfl⟩, nofun⟩
      have hlength : 0 < parts.length := Nat.lt_of_lt_of_le Nat.two_pos (hproper _ .refl parts rfl)
      -- The first part is there, so the value before it is not looked at.
      obtain ⟨first, others, rfl⟩ := List.exists_cons_of_length_pos hlength
      have htrue : (Value.bool true).truthy = true := rfl
      have hall := evalAll_of_evalLogical (fun c hc => (hparts c (.conjunct hc)).1) htrue hv
      rw [eval, hall]
      rfl
    | or parts =>
      refine ⟨fun v hv => ⟨.bool v.truthy, ?_, rfl⟩, nofun⟩
      have hfalse : Value.null.truthy = false := rfl
      have hany := evalAny_of_evalLogical (fun c hc => (hparts c (.disjunct hc)).1) hfalse hv
      rw [eval, hany]
      rfl
    | compare op left right =>
      refine follows_of_eval_eq nofun fun v hv => ?_
      obtain ⟨l, r, b, hl, hr, htest, rfl⟩ := eq_of_evalCompare hv
      obtain ⟨hleft, hright⟩ := hoperands op left right .refl
      have hl := (hparts left (.left op left right)).2 hleft l hl
      have hr := (hparts right (.right op left right)).2 hright r hr
      rw [eval, hl]
      show (operand scope right (right.eval scope) >>= _) = _
      rw [hr]
      show Except.ok (Value.bool ((op.test? l r).getD false)) = _
      rw [htest]
      rfl

end Condition

end CrapsStrategy
