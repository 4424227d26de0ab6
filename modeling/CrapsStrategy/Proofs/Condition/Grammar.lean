import Mathlib.Logic.Relation
import CrapsStrategy.Condition.Parser
import CrapsStrategy.Proofs.Except
import CrapsStrategy.Proofs.Token.Lexer
import CrapsStrategy.Proofs.Token.Stream
import Mathlib.Data.List.Basic

/-!
# `CrapsStrategy.Proofs.Condition.Grammar`: the grammar of conditions

`Derives` is the grammar: a phrase, all of its tokens in order, and the
tree they are written for. It knows nothing of what comes after a
phrase, and so nothing of how a parser finds the end of one.

The parser takes exactly the derivable phrases, both ways. What it
takes off a list of tokens is derived (`reads_disjunction` and its
companions, which recurse as the parser does). A derived phrase is taken
whole as soon as the token after it does not bind to it (`binding`), as
`Derives.parses` has it by induction on the derivation. So a text is a
condition exactly when its tokens before the end of the input are a
disjunction: `parse_iff_derives`.
-/

set_option autoImplicit false

namespace CrapsStrategy

namespace Condition

open TokenStream

/-! ### Parts -/

/-- The conditions that a condition is made of. -/
inductive Part : Condition → Condition → Prop
  | inner (inner : Condition) : Part inner (not inner)
  | conjunct {c : Condition} {parts : List Condition} (hc : c ∈ parts) : Part c (and parts)
  | disjunct {c : Condition} {parts : List Condition} (hc : c ∈ parts) : Part c (or parts)
  | left (op : Comparison) (left right : Condition) : Part left (compare op left right)
  | right (op : Comparison) (left right : Condition) : Part right (compare op left right)

/-- A condition somewhere in another, at any depth. -/
def Within (c whole : Condition) : Prop :=
  Relation.ReflTransGen Part c whole

/-- What is within a condition is the condition, or within a part. -/
theorem within_iff {c whole : Condition} :
    c.Within whole ↔ c = whole ∨ ∃ part, Part part whole ∧ c.Within part := by
  refine Relation.ReflTransGen.cases_tail_iff Part c whole |>.trans ?_
  exact or_congr eq_comm (exists_congr fun _ => and_comm)

/-- A part is smaller than the whole. This is what inductions over parts
go down on. -/
theorem sizeOf_lt_of_part {c whole : Condition} (h : Part c whole) : sizeOf c < sizeOf whole := by
  cases h with
  | conjunct hc | disjunct hc =>
    have hlt := List.sizeOf_lt_of_mem hc
    simp only [and.sizeOf_spec, or.sizeOf_spec]
    omega
  | inner | left | right =>
    simp only [not.sizeOf_spec, compare.sizeOf_spec]
    omega

/-- What passes from the parts of a condition to the whole holds of
every condition. -/
theorem part_induction {motive : Condition → Prop}
    (whole : ∀ whole, (∀ c, Part c whole → motive c) → motive whole) (c : Condition) : motive c :=
  whole c fun part hpart =>
    have := sizeOf_lt_of_part hpart
    part_induction whole part
termination_by sizeOf c

/-- The parts that a connective joins. -/
def connected? : Condition → Option (List Condition)
  | and parts | or parts => some parts
  | _ => none

/-- Connectives join two parts or more, at every depth. -/
def Proper (c : Condition) : Prop :=
  ∀ d : Condition, d.Within c → ∀ parts, d.connected? = some parts → 2 ≤ parts.length

/-- The parts of a proper condition are proper. -/
theorem Proper.part {c whole : Condition} (h : whole.Proper) (hpart : Part c whole) : c.Proper :=
  fun d hd => h d (Relation.ReflTransGen.tail hd hpart)

/-- A condition is proper if its parts are and its own connective, if it
has one, joins two of them or more. -/
theorem proper_of_parts {c : Condition} (hparts : ∀ part, Part part c → part.Proper)
    (hc : ∀ parts, c.connected? = some parts → 2 ≤ parts.length) : c.Proper := by
  intro d hd
  rcases within_iff.1 hd with heq | ⟨part, hpart, hd⟩
  · exact heq ▸ hc
  · exact hparts part hpart d hd

/-- A connective of two proper parts or more is proper. -/
theorem proper_of_connected {c : Condition} {parts : List Condition}
    (hc : c.connected? = some parts) (htwo : 2 ≤ parts.length)
    (hparts : ∀ part ∈ parts, part.Proper) : c.Proper := by
  refine proper_of_parts (fun part hpart => ?_) fun others hothers => ?_
  · cases hpart with
    | conjunct hmem | disjunct hmem =>
      cases hc
      exact hparts part hmem
    | inner | left | right => cases hc
  · rw [hc] at hothers
    cases hothers
    exact htwo

/-! ### The grammar -/

/-- The phrases of the grammar, by the trees that they stand for. -/
inductive Phrase : Type → Type
  | disjunction : Phrase Condition
  | disjuncts : Phrase (List Condition)
  | conjunction : Phrase Condition
  | conjuncts : Phrase (List Condition)
  | negation : Phrase Condition
  | comparison : Phrase Condition
  | term : Phrase Condition

/-- The tokens of a phrase for a tree. -/
inductive Derives : {α : Type} → Phrase α → List Located → α → Prop
  -- disjunction = conjunction (or conjunction)*
  | onlyDisjunct {xs : List Located} {c : Condition} (hc : Derives .disjuncts xs [c]) :
      Derives .disjunction xs c
  | or {xs : List Located} {c d : Condition} {cs : List Condition}
      (hcs : Derives .disjuncts xs (c :: d :: cs)) :
      Derives .disjunction xs (.or (c :: d :: cs))
  | lastDisjunct {xs : List Located} {c : Condition} (hc : Derives .conjunction xs c) :
      Derives .disjuncts xs [c]
  | disjunct {xs ys : List Located} {t : Located} {c : Condition} {cs : List Condition}
      (hc : Derives .conjunction xs c) (ht : t.token = .keyword .or)
      (hcs : Derives .disjuncts ys cs) : Derives .disjuncts (xs ++ t :: ys) (c :: cs)
  -- conjunction = negation (and negation)*
  | onlyConjunct {xs : List Located} {c : Condition} (hc : Derives .conjuncts xs [c]) :
      Derives .conjunction xs c
  | and {xs : List Located} {c d : Condition} {cs : List Condition}
      (hcs : Derives .conjuncts xs (c :: d :: cs)) :
      Derives .conjunction xs (.and (c :: d :: cs))
  | lastConjunct {xs : List Located} {c : Condition} (hc : Derives .negation xs c) :
      Derives .conjuncts xs [c]
  | conjunct {xs ys : List Located} {t : Located} {c : Condition} {cs : List Condition}
      (hc : Derives .negation xs c) (ht : t.token = .keyword .and)
      (hcs : Derives .conjuncts ys cs) : Derives .conjuncts (xs ++ t :: ys) (c :: cs)
  -- negation = not* comparison
  | not {xs : List Located} {t : Located} {c : Condition} (ht : t.token = .keyword .not)
      (hc : Derives .negation xs c) : Derives .negation (t :: xs) (.not c)
  | positive {xs : List Located} {c : Condition} (hc : Derives .comparison xs c) :
      Derives .negation xs c
  -- comparison = term (symbol term)?
  | uncompared {xs : List Located} {c : Condition} (hc : Derives .term xs c) :
      Derives .comparison xs c
  | compare {xs ys : List Located} {t : Located} {op : Comparison} {left right : Condition}
      (hleft : Derives .term xs left) (ht : Comparison.ofToken? t.token = some op)
      (hright : Derives .term ys right) :
      Derives .comparison (xs ++ t :: ys) (.compare op left right)
  -- term = literal | name | (disjunction)
  | literal {t : Located} {v : Value} (ht : t.token.literal? = some v) :
      Derives .term [t] (.literal v)
  | path {t : Located} {text : String} (ht : t.token = .name text) : Derives .term [t] (.path text)
  | group {xs : List Located} {t u : Located} {c : Condition} (ht : t.token = .symbol .openParen)
      (hc : Derives .disjunction xs c) (hu : u.token = .symbol .closeParen) :
      Derives .term (t :: (xs ++ [u])) c

/-- Whether all trees of a phrase are proper. -/
def Phrase.Proper : {α : Type} → Phrase α → α → Prop
  | _, .disjunction, c | _, .conjunction, c | _, .negation, c | _, .comparison, c
  | _, .term, c => c.Proper
  | _, .disjuncts, cs | _, .conjuncts, cs => ∀ c ∈ cs, c.Proper

/-- The trees of the grammar are proper. A list with one part is the
tree of that part, so a connective is only made of two or more. -/
theorem Derives.proper {α : Type} {phrase : Phrase α} {xs : List Located} {node : α}
    (h : Derives phrase xs node) : phrase.Proper node := by
  induction h with
  | onlyDisjunct _ ih | onlyConjunct _ ih => exact ih _ List.mem_cons_self
  | or _ ih | and _ ih => exact proper_of_connected rfl (by simp) ih
  | lastDisjunct _ ih | lastConjunct _ ih => exact List.forall_mem_singleton.2 ih
  | disjunct _ _ _ ih ihcs | conjunct _ _ _ ih ihcs => exact List.forall_mem_cons.2 ⟨ih, ihcs⟩
  | not _ _ ih => exact proper_of_parts (fun | _, .inner _ => ih) nofun
  | positive _ ih | uncompared _ ih | group _ _ _ ih => exact ih
  | compare _ _ _ ihleft ihright =>
    exact proper_of_parts (fun | _, .left .. => ihleft | _, .right .. => ihright) nofun
  | literal | path => exact proper_of_parts nofun nofun

/-! ### The parser takes phrases -/

/-- The tokens `ts` start with a phrase for a tree, and `us` come after
it. -/
def Reads {α : Type} (phrase : Phrase α) (ts : List Located) (node : α) (us : List Located) :
    Prop :=
  ∃ xs, ts = xs ++ us ∧ Derives phrase xs node

/-- The tokens `us` go on from one part of a list to the end of it, and
`vs` come after it. -/
def ReadsOthers (part : Phrase Condition) (whole : Phrase (List Condition)) (us : List Located)
    (others : List Condition) (vs : List Located) : Prop :=
  ∃ ys, us = ys ++ vs ∧ ∀ xs c, Derives part xs c → Derives whole (xs ++ ys) (c :: others)

section

variable {ts us vs : List Located} {t u : Located} {c left right : Condition}
  {cs others : List Condition} {part : Phrase Condition} {whole : Phrase (List Condition)}

/-- What is read as a phrase is read as every wider one. -/
theorem Reads.mono {α β : Type} {phrase : Phrase α} {wider : Phrase β} {node : α} {node' : β}
    (h : Reads phrase ts node us)
    (hwider : ∀ {xs}, Derives phrase xs node → Derives wider xs node') :
    Reads wider ts node' us := by
  obtain ⟨xs, hts, hxs⟩ := h
  exact ⟨xs, hts, hwider hxs⟩

/-- A list is read part by part: the first part, then the others up to
the end of the list. -/
theorem Reads.cons (h : Reads part ts c us) (hothers : ReadsOthers part whole us others vs) :
    Reads whole ts (c :: others) vs := by
  obtain ⟨xs, rfl, hxs⟩ := h
  obtain ⟨ys, rfl, hys⟩ := hothers
  exact ⟨xs ++ ys, (List.append_assoc xs ys vs).symm, hys xs c hxs⟩

/-- A list may end after any part. -/
theorem ReadsOthers.stop (hlast : ∀ {xs c}, Derives part xs c → Derives whole xs [c]) :
    ReadsOthers part whole us [] us := by
  refine ⟨[], rfl, fun xs c hc => ?_⟩
  rw [List.append_nil]
  exact hlast hc

/-- After a part of a disjunction an `or` goes on with the next one. -/
theorem ReadsOthers.disjunct (ht : t.token = .keyword .or) (hcs : Reads .disjuncts us cs vs) :
    ReadsOthers .conjunction .disjuncts (t :: us) cs vs := by
  obtain ⟨ys, rfl, hys⟩ := hcs
  exact ⟨t :: ys, rfl, fun _ _ hc => .disjunct hc ht hys⟩

/-- After a part of a conjunction an `and` goes on with the next one. -/
theorem ReadsOthers.conjunct (ht : t.token = .keyword .and) (hcs : Reads .conjuncts us cs vs) :
    ReadsOthers .negation .conjuncts (t :: us) cs vs := by
  obtain ⟨ys, rfl, hys⟩ := hcs
  exact ⟨t :: ys, rfl, fun _ _ hc => .conjunct hc ht hys⟩

/-- The parts of a disjunction are read as the tree that joins them,
which for a single part is that part. -/
theorem Reads.joined_or (h : Reads .disjuncts ts (c :: cs) us) :
    Reads .disjunction ts (joined or (c :: cs)) us := by
  cases cs with
  | nil => exact h.mono .onlyDisjunct
  | cons d cs => exact h.mono .or

/-- The parts of a conjunction are read as the tree that joins them. -/
theorem Reads.joined_and (h : Reads .conjuncts ts (c :: cs) us) :
    Reads .conjunction ts (joined and (c :: cs)) us := by
  cases cs with
  | nil => exact h.mono .onlyConjunct
  | cons d cs => exact h.mono .and

/-- A `not` in front of a negation makes a negation. -/
theorem Reads.not (ht : t.token = .keyword .not) (h : Reads .negation ts c us) :
    Reads .negation (t :: ts) (.not c) us := by
  obtain ⟨xs, rfl, hxs⟩ := h
  exact ⟨t :: xs, rfl, .not ht hxs⟩

/-- Two terms around a comparison symbol make a comparison. -/
theorem Reads.compare {op : Comparison} (hleft : Reads .term ts left (t :: us))
    (ht : Comparison.ofToken? t.token = some op) (hright : Reads .term us right vs) :
    Reads .comparison ts (.compare op left right) vs := by
  obtain ⟨xs, rfl, hxs⟩ := hleft
  obtain ⟨ys, rfl, hys⟩ := hright
  exact ⟨xs ++ t :: ys, by simp, .compare hxs ht hys⟩

/-- A disjunction in parentheses is a term, and has no node of its own. -/
theorem Reads.group (ht : t.token = .symbol .openParen) (h : Reads .disjunction ts c (u :: us))
    (hu : u.token = .symbol .closeParen) : Reads .term (t :: ts) c us := by
  obtain ⟨xs, rfl, hxs⟩ := h
  exact ⟨t :: (xs ++ [u]), by simp, .group ht hxs hu⟩

/-- A literal or a path is a term. -/
theorem Reads.leaf (ht : ofToken? t.token = some c) : Reads .term (t :: ts) c ts := by
  refine ⟨[t], rfl, ?_⟩
  unfold ofToken? at ht
  split at ht
  · rename_i hname
    cases ht
    exact .path hname
  · obtain ⟨v, hv, heq⟩ := Option.map_eq_some_iff.1 ht
    cases heq
    exact .literal hv

end

-- The cases are those of the parser. The bounds named fewer are there for
-- the recursion alone.
mutual

/-- What the parser takes for a disjunction is one in the grammar. -/
theorem reads_disjunction {ts : List Located} {p : Parsed Condition ts.length}
    (h : disjunction ts = .ok p) : Reads .disjunction ts p.node p.rest := by
  rw [disjunction] at h
  obtain ⟨first, hfirst, h⟩ := bind_eq_ok.1 h
  obtain ⟨others, hothers, h⟩ := bind_eq_ok.1 h
  have fewer := first.fewer
  cases h
  exact ((reads_conjunction hfirst).cons (reads_orTail hothers)).joined_or
termination_by (ts.length, 5)
decreasing_by all_goals simp only [Prod.lex_def, true_and]; omega

/-- What it takes after the first part of a disjunction goes on with the
parts. -/
theorem reads_orTail {ts : List Located} {p : Parsed (List Condition) (ts.length + 1)}
    (h : orTail ts = .ok p) : ReadsOthers .conjunction .disjuncts ts p.node p.rest := by
  rw [orTail] at h
  split at h
  · rename_i rest hrest hor
    obtain ⟨t, hts, ht⟩ := of_after? hor
    obtain ⟨part, hpart, h⟩ := bind_eq_ok.1 h
    have fewer := Nat.lt_trans part.fewer hrest
    obtain ⟨others, hothers, h⟩ := bind_eq_ok.1 h
    have hreads := (reads_conjunction hpart).cons (reads_orTail hothers)
    cases h
    subst hts
    exact .disjunct ht hreads
  · cases h
    exact .stop .lastDisjunct
termination_by (ts.length, 0)
decreasing_by all_goals simp only [Prod.lex_def]; omega

/-- What it takes for a conjunction is one. -/
theorem reads_conjunction {ts : List Located} {p : Parsed Condition ts.length}
    (h : conjunction ts = .ok p) : Reads .conjunction ts p.node p.rest := by
  rw [conjunction] at h
  obtain ⟨first, hfirst, h⟩ := bind_eq_ok.1 h
  obtain ⟨others, hothers, h⟩ := bind_eq_ok.1 h
  have fewer := first.fewer
  cases h
  exact ((reads_negation hfirst).cons (reads_andTail hothers)).joined_and
termination_by (ts.length, 4)
decreasing_by all_goals simp only [Prod.lex_def, true_and]; omega

/-- What it takes after the first part of a conjunction goes on with the
parts. -/
theorem reads_andTail {ts : List Located} {p : Parsed (List Condition) (ts.length + 1)}
    (h : andTail ts = .ok p) : ReadsOthers .negation .conjuncts ts p.node p.rest := by
  rw [andTail] at h
  split at h
  · rename_i rest hrest hand
    obtain ⟨t, hts, ht⟩ := of_after? hand
    obtain ⟨part, hpart, h⟩ := bind_eq_ok.1 h
    have fewer := Nat.lt_trans part.fewer hrest
    obtain ⟨others, hothers, h⟩ := bind_eq_ok.1 h
    have hreads := (reads_negation hpart).cons (reads_andTail hothers)
    cases h
    subst hts
    exact .conjunct ht hreads
  · cases h
    exact .stop .lastConjunct
termination_by (ts.length, 0)
decreasing_by all_goals simp only [Prod.lex_def]; omega

/-- What it takes for a negation is one. -/
theorem reads_negation {ts : List Located} {p : Parsed Condition ts.length}
    (h : negation ts = .ok p) : Reads .negation ts p.node p.rest := by
  rw [negation] at h
  split at h
  · rename_i rest hrest hnot
    obtain ⟨t, hts, ht⟩ := of_after? hnot
    obtain ⟨inner, hinner, h⟩ := bind_eq_ok.1 h
    have hreads := reads_negation hinner
    cases h
    subst hts
    exact .not ht hreads
  · exact (reads_comparison h).mono .positive
termination_by (ts.length, 3)
decreasing_by all_goals simp only [Prod.lex_def, true_and]; omega

/-- What it takes for a comparison is one, or a term that is not
compared. -/
theorem reads_comparison {ts : List Located} {p : Parsed Condition ts.length}
    (h : comparison ts = .ok p) : Reads .comparison ts p.node p.rest := by
  rw [comparison] at h
  obtain ⟨left, hleft, h⟩ := bind_eq_ok.1 h
  have hreads := reads_term hleft
  split at h
  · rename_i op rest hrest hop
    obtain ⟨t, hus, ht⟩ := of_accept? hop
    have fewer := Nat.lt_trans hrest left.fewer
    obtain ⟨right, hright, h⟩ := bind_eq_ok.1 h
    cases h
    rw [hus] at hreads
    exact hreads.compare ht (reads_term hright)
  · cases h
    exact hreads.mono .uncompared
termination_by (ts.length, 2)
decreasing_by all_goals simp only [Prod.lex_def, true_and]; omega

/-- What it takes for a term is one. This closes the mutual induction. -/
theorem reads_term {ts : List Located} {p : Parsed Condition ts.length}
    (h : term ts = .ok p) : Reads .term ts p.node p.rest := by
  rw [term] at h
  split at h
  · rename_i rest hrest hopen
    obtain ⟨t, hts, ht⟩ := of_after? hopen
    obtain ⟨inner, hinner, h⟩ := bind_eq_ok.1 h
    have hreads := reads_disjunction hinner
    obtain ⟨⟨rest', hrest'⟩, hclose, h⟩ := bind_eq_ok.1 h
    obtain ⟨u, hus, hu⟩ := of_expect hclose
    cases h
    subst hts
    rw [hus] at hreads
    exact hreads.group ht hu
  · split at h
    · rename_i c rest hrest hc
      obtain ⟨t, hts, ht⟩ := of_accept? hc
      cases h
      subst hts
      exact .leaf ht
    · cases h
termination_by (ts.length, 1)
decreasing_by all_goals simp only [Prod.lex_def]; omega

end

/-! ### The token after a phrase -/

/-- How loosely the next token binds to what is before it. Tokens that
no phrase goes on with are the loosest. -/
def binding (us : List Located) : Nat :=
  match (next us).token with
  | .symbol .less | .symbol .greater | .symbol .atMost | .symbol .atLeast | .symbol .equal
  | .symbol .notEqual => 1
  | .keyword .and => 2
  | .keyword .or => 3
  | _ => 4

/-- Comparison symbols bind tightest of all that may follow a phrase. -/
theorem binding_of_ofToken? {us : List Located} {op : Comparison}
    (h : Comparison.ofToken? (next us).token = some op) : binding us = 1 := by
  unfold Comparison.ofToken? at h
  split at h
  case h_7 => cases h
  all_goals
    rename_i htoken
    rw [binding, htoken]

/-- Whether `not` may stand at the head of a phrase. -/
def Phrase.negates : {α : Type} → Phrase α → Bool
  | _, .comparison | _, .term => false
  | _, _ => true

/-- A comparison does not start with `not`. So a parser that sees no
`not` is right to look for a comparison. -/
theorem Derives.next_ne_not {α : Type} {phrase : Phrase α} {xs : List Located} {node : α}
    (h : Derives phrase xs node) (hphrase : phrase.negates = false) (us : List Located) :
    (next (xs ++ us)).token ≠ .keyword .not := by
  induction h generalizing us with
  | onlyDisjunct | or | lastDisjunct | disjunct | onlyConjunct | and | lastConjunct | conjunct
  | not | positive => cases hphrase
  | uncompared _ ih => exact ih rfl us
  | compare _ _ _ ih =>
    rw [List.append_assoc]
    exact ih rfl _
  | @literal t _ ht =>
    intro hnot
    rw [show t.token = _ from hnot] at ht
    cases ht
  | path ht | group ht => simp [next, ht]

/-! ### Steps of the parser

One step for each way to go on, with the results of the parts as
hypotheses. -/

section

variable {ts us vs : List Located} {t u : Located} {c first left right : Condition}
  {others : List Condition}

/-- A disjunction is parsed as its first part and the further ones. -/
theorem yields_disjunction (hfirst : Yields (conjunction ts) first us)
    (hothers : Yields (orTail us) others vs) :
    Yields (disjunction ts) (joined or (first :: others)) vs := by
  rw [disjunction]
  exact hfirst.bind fun _ => hothers.bind fun _ => ⟨_, rfl⟩

/-- The parts of a disjunction end where the next token goes on with no
phrase. -/
theorem yields_orTail_stop (hend : 3 < binding us) : Yields (orTail us) [] us := by
  have hnone : after? (.keyword .or) us = none := by
    refine (after?_eq_none (by decide)).2 fun ht => ?_
    rw [binding, ht] at hend
    exact absurd hend (by decide)
  rw [orTail, hnone]
  exact ⟨_, rfl⟩

/-- An `or` goes on with a conjunction. -/
theorem yields_orTail_cons (ht : t.token = .keyword .or)
    (hfirst : Yields (conjunction ts) first us) (hothers : Yields (orTail us) others vs) :
    Yields (orTail (t :: ts)) (first :: others) vs := by
  rw [orTail, after?_cons ht]
  exact hfirst.bind fun _ => hothers.bind fun _ => ⟨_, rfl⟩

/-- A conjunction is parsed as its first part and the further ones. -/
theorem yields_conjunction (hfirst : Yields (negation ts) first us)
    (hothers : Yields (andTail us) others vs) :
    Yields (conjunction ts) (joined and (first :: others)) vs := by
  rw [conjunction]
  exact hfirst.bind fun _ => hothers.bind fun _ => ⟨_, rfl⟩

/-- The parts of a conjunction end where an `or` or something looser is
next. -/
theorem yields_andTail_stop (hend : 2 < binding us) : Yields (andTail us) [] us := by
  have hnone : after? (.keyword .and) us = none := by
    refine (after?_eq_none (by decide)).2 fun ht => ?_
    rw [binding, ht] at hend
    exact absurd hend (by decide)
  rw [andTail, hnone]
  exact ⟨_, rfl⟩

/-- An `and` goes on with a negation. -/
theorem yields_andTail_cons (ht : t.token = .keyword .and)
    (hfirst : Yields (negation ts) first us) (hothers : Yields (andTail us) others vs) :
    Yields (andTail (t :: ts)) (first :: others) vs := by
  rw [andTail, after?_cons ht]
  exact hfirst.bind fun _ => hothers.bind fun _ => ⟨_, rfl⟩

/-- A `not` is parsed as the negation of what follows. -/
theorem yields_negation_not (ht : t.token = .keyword .not) (h : Yields (negation ts) c us) :
    Yields (negation (t :: ts)) (.not c) us := by
  rw [negation, after?_cons ht]
  exact h.bind fun _ => ⟨_, rfl⟩

/-- Without a `not` in front a negation is a comparison. -/
theorem yields_negation_positive (h : Yields (comparison ts) c us)
    (hstart : (next ts).token ≠ .keyword .not) : Yields (negation ts) c us := by
  rw [negation, (after?_eq_none (by decide)).2 hstart]
  exact h

/-- A term with no comparison symbol behind it stands alone. -/
theorem yields_comparison_stop (h : Yields (term ts) c us) (hend : 1 < binding us) :
    Yields (comparison ts) c us := by
  have hnone : Comparison.ofToken? (next us).token = none :=
    Option.eq_none_iff_forall_ne_some.2 fun _ hop => by
      rw [binding_of_ofToken? hop] at hend
      exact absurd hend (by decide)
  rw [comparison]
  refine h.bind fun _ => ?_
  dsimp only
  rw [(accept?_eq_none rfl).2 hnone]
  exact ⟨_, rfl⟩

/-- A comparison symbol goes on with a term. -/
theorem yields_comparison {op : Comparison} (hleft : Yields (term ts) left (t :: us))
    (ht : Comparison.ofToken? t.token = some op) (hright : Yields (term us) right vs) :
    Yields (comparison ts) (.compare op left right) vs := by
  rw [comparison]
  refine hleft.bind fun _ => ?_
  dsimp only
  rw [accept?_cons ht]
  exact hright.bind fun _ => ⟨_, rfl⟩

/-- An opening parenthesis is parsed as a group, up to the closing one. -/
theorem yields_term_group (ht : t.token = .symbol .openParen)
    (h : Yields (disjunction ts) c (u :: us)) (hu : u.token = .symbol .closeParen) :
    Yields (term (t :: ts)) c us := by
  rw [term, after?_cons ht]
  refine h.bind fun _ => ?_
  dsimp only
  rw [expect_cons hu]
  exact ⟨_, rfl⟩

/-- A literal token makes a literal. The names come first in the match,
and no name is a literal. -/
theorem ofToken?_of_literal {token : Token} {v : Value} (h : token.literal? = some v) :
    ofToken? token = some (.literal v) := by
  cases token with
  | name text => cases h
  | _ => exact congrArg (Option.map literal) h

/-- A literal or a name is a term by itself. -/
theorem yields_term_leaf (ht : ofToken? t.token = some c) : Yields (term (t :: ts)) c ts := by
  have hparen : after? (.symbol .openParen) (t :: ts) = none := by
    refine (after?_eq_none (by decide)).2 fun hopen => ?_
    rw [show t.token = _ from hopen] at ht
    cases ht
  rw [term, hparen, accept?_cons ht]
  exact ⟨_, rfl⟩

end

/-! ### The parser follows derivations -/

/-- The level up to which the token after a phrase must not bind, for
the parser to end the phrase there. -/
def Phrase.level : {α : Type} → Phrase α → Nat
  | _, .disjunction | _, .disjuncts => 3
  | _, .conjunction | _, .conjuncts => 2
  | _, .negation | _, .comparison => 1
  | _, .term => 0

/-- What the parser makes of a phrase. -/
def Phrase.Parses : {α : Type} → Phrase α → List Located → α → List Located → Prop
  | _, .disjunction, ts, c, us => Yields (Condition.disjunction ts) c us
  | _, .disjuncts, ts, cs, us => ∃ first rest others, cs = first :: others ∧
      Yields (Condition.conjunction ts) first rest ∧ Yields (orTail rest) others us
  | _, .conjunction, ts, c, us => Yields (Condition.conjunction ts) c us
  | _, .conjuncts, ts, cs, us => ∃ first rest others, cs = first :: others ∧
      Yields (Condition.negation ts) first rest ∧ Yields (andTail rest) others us
  | _, .negation, ts, c, us => Yields (Condition.negation ts) c us
  | _, .comparison, ts, c, us => Yields (Condition.comparison ts) c us
  | _, .term, ts, c, us => Yields (Condition.term ts) c us

/-- Every token is looser than a term, so a term ends wherever it does. -/
theorem binding_pos (us : List Located) : 0 < binding us := by
  unfold binding
  split <;> omega

/-- The parser takes a phrase of the grammar as it is, if the token
behind it binds more loosely than the phrase. The induction is on the
derivation, with any tokens behind it, since a part is followed by the
rest of the whole. -/
theorem Derives.parses {α : Type} {phrase : Phrase α} {xs : List Located} {node : α}
    (h : Derives phrase xs node) {us : List Located} (hend : phrase.level < binding us) :
    phrase.Parses (xs ++ us) node us := by
  -- On the derivation. What comes after a part is a token of its rule, which
  -- binds at the level of the whole, or what comes after the whole.
  induction h generalizing us with
  | onlyDisjunct _ ih | or _ ih =>
    obtain ⟨first, rest, others, hcs, hfirst, hothers⟩ := ih hend
    cases hcs
    exact yields_disjunction hfirst hothers
  | lastDisjunct _ ih =>
    simp only [Phrase.level] at hend ih
    exact ⟨_, _, [], rfl, ih (by omega), yields_orTail_stop hend⟩
  | disjunct _ ht _ ih ihcs =>
    obtain ⟨first, rest, others, hcs, hfirst, hothers⟩ := ihcs hend
    rw [List.append_assoc, hcs]
    exact ⟨_, _, _, rfl, ih (by simp [Phrase.level, binding, next, ht]),
      yields_orTail_cons ht hfirst hothers⟩
  | onlyConjunct _ ih | and _ ih =>
    obtain ⟨first, rest, others, hcs, hfirst, hothers⟩ := ih hend
    cases hcs
    exact yields_conjunction hfirst hothers
  | lastConjunct _ ih =>
    simp only [Phrase.level] at hend ih
    exact ⟨_, _, [], rfl, ih (by omega), yields_andTail_stop hend⟩
  | conjunct _ ht _ ih ihcs =>
    obtain ⟨first, rest, others, hcs, hfirst, hothers⟩ := ihcs hend
    rw [List.append_assoc, hcs]
    exact ⟨_, _, _, rfl, ih (by simp [Phrase.level, binding, next, ht]),
      yields_andTail_cons ht hfirst hothers⟩
  | not ht _ ih => exact yields_negation_not ht (ih hend)
  | positive h ih => exact yields_negation_positive (ih hend) (h.next_ne_not rfl us)
  | uncompared _ ih => exact yields_comparison_stop (ih (binding_pos us)) hend
  | compare _ ht _ ihleft ihright =>
    rw [List.append_assoc]
    exact yields_comparison (ihleft (binding_pos _)) ht (ihright (binding_pos us))
  | literal ht => exact yields_term_leaf (ofToken?_of_literal ht)
  | path ht => exact yields_term_leaf (by rw [ht, ofToken?])
  | group ht _ hu ih =>
    rw [List.cons_append, List.append_assoc]
    exact yields_term_group ht (ih (by simp [Phrase.level, binding, next, hu])) hu

/-! ### Whole texts -/

/-- No phrase has the end of the input in it. -/
theorem Derives.ne_endOfInput {α : Type} {phrase : Phrase α} {xs : List Located} {node : α}
    (h : Derives phrase xs node) : ∀ t ∈ xs, t.token ≠ .endOfInput := by
  induction h with
  | onlyDisjunct _ ih | or _ ih | lastDisjunct _ ih | onlyConjunct _ ih | and _ ih
  | lastConjunct _ ih | positive _ ih | uncompared _ ih => exact ih
  | disjunct _ ht _ ih ihothers | conjunct _ ht _ ih ihothers =>
    simp only [List.forall_mem_append, List.forall_mem_cons, ht]
    exact ⟨ih, by decide, ihothers⟩
  | compare _ ht _ ih ihothers =>
    refine List.forall_mem_append.2 ⟨ih, List.forall_mem_cons.2 ⟨fun hend => ?_, ihothers⟩⟩
    rw [hend] at ht
    cases ht
  | not ht _ ih =>
    simp only [List.forall_mem_cons, ht]
    exact ⟨by decide, ih⟩
  | literal ht =>
    refine List.forall_mem_singleton.2 fun hend => ?_
    rw [hend] at ht
    cases ht
  | path ht => exact List.forall_mem_singleton.2 (by simp [ht])
  | group ht _ hu ih =>
    simp only [List.forall_mem_cons, List.forall_mem_append, ht, hu]
    exact ⟨by decide, ih, by decide⟩

/-- A text that is not blank is read from its tokens. -/
theorem parse_eq_ofTokens {source : String} (hblank : Text.isBlankText source = false)
    {tokens : List Located} (htokens : tokenize .condition source = .ok tokens) :
    parse source = ofTokens tokens := by
  rw [parse, hblank, htokens]
  rfl

/-- Tokens up to the end of the input are parsed as a condition exactly
when they derive it. One direction is the soundness of the parser, the
other its completeness. -/
theorem ofTokens_eq_ok_iff {init : List Located} {last : Position}
    (hinit : ∀ t ∈ init, t.token ≠ .endOfInput) (c : Condition) :
    ofTokens (init ++ [⟨.endOfInput, last⟩]) = .ok c ↔ Derives .disjunction init c := by
  unfold ofTokens
  constructor
  · intro h
    obtain ⟨p, hp, h⟩ := bind_eq_ok.1 h
    obtain ⟨xs, hxs, hderives⟩ := reads_disjunction hp
    split at h
    · rename_i hend
      cases h
      -- The phrase may not take the end of the input along.
      have htaken := takeWhile_eq_of_end hderives.ne_endOfInput hend
      rw [← hxs, takeWhile_eq_of_end hinit rfl] at htaken
      exact htaken ▸ hderives
    · cases h
  · intro h
    have hend : Phrase.disjunction.level < binding [⟨.endOfInput, last⟩] := by
      simp [Phrase.level, binding, next]
    obtain ⟨_, hyields⟩ := h.parses hend
    rw [hyields]
    rfl

/-- A text that is not blank is a condition exactly when its tokens up
to the end of the input are a disjunction of the grammar; the condition
is the tree of it, with two parts or more under each connective. -/
theorem parse_iff_derives {source : String} (hblank : Text.isBlankText source = false)
    {init : List Located} {last : Position}
    (htokens : tokenize .condition source = .ok (init ++ [⟨.endOfInput, last⟩])) :
    (∀ c, parse source = .ok c ↔ Derives .disjunction init c) ∧
      ∀ c, parse source = .ok c → c.Proper := by
  have hinit : ∀ t ∈ init, t.token ≠ .endOfInput := by
    obtain ⟨front, position, htoken, hlexed⟩ := tokenize_eq_ok htokens
    obtain ⟨rfl, _⟩ := List.append_inj' htoken rfl
    exact fun t ht => (hlexed t ht).ne_endOfInput
  have hiff : ∀ c, parse source = .ok c ↔ Derives .disjunction init c := by
    intro c
    rw [parse_eq_ofTokens hblank htokens, ofTokens_eq_ok_iff hinit]
  exact ⟨hiff, fun c hc => ((hiff c).1 hc).proper⟩

/-- A guard over two lines, with a group and a negation. -/
def pressSource : String :=
  "hot AND (up\nAND NOT point == 6)"

/-- Its tokens, up to the end of the input. -/
def pressTokens : List Located :=
  [⟨.name "hot", ⟨1, 1⟩⟩, ⟨.keyword .and, ⟨1, 5⟩⟩, ⟨.symbol .openParen, ⟨1, 9⟩⟩,
    ⟨.name "up", ⟨1, 10⟩⟩, ⟨.keyword .and, ⟨2, 1⟩⟩, ⟨.keyword .not, ⟨2, 5⟩⟩,
    ⟨.name "point", ⟨2, 9⟩⟩, ⟨.symbol .equal, ⟨2, 15⟩⟩, ⟨.int 6, ⟨2, 18⟩⟩,
    ⟨.symbol .closeParen, ⟨2, 19⟩⟩]

/-- A guard for a press; its group stays a group. -/
def press : Condition :=
  .and [.path "hot", .and [.path "up", .not (.compare .eq (.path "point") (.literal (.int 6)))]]

/-- The guard is parsed as the tree, which the grammar derives and which
is proper. -/
theorem parse_press :
    Text.isBlankText pressSource = false ∧
      tokenize .condition pressSource = .ok (pressTokens ++ [⟨.endOfInput, ⟨2, 20⟩⟩]) ∧
      parse pressSource = .ok press ∧ Derives .disjunction pressTokens press ∧ press.Proper := by
  have hblank : Text.isBlankText pressSource = false := by
    rfl
  have htokens :
      tokenize .condition pressSource = .ok (pressTokens ++ [⟨.endOfInput, ⟨2, 20⟩⟩]) := by
    decide +kernel
  have hparse : parse pressSource = .ok press := by
    rw [parse_eq_ofTokens hblank htokens]
    with_unfolding_all rfl
  obtain ⟨hiff, hproper⟩ := parse_iff_derives hblank htokens
  exact ⟨hblank, htokens, hparse, (hiff press).1 hparse, hproper press hparse⟩

end Condition

end CrapsStrategy
