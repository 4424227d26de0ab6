import CrapsStrategy.Proofs.Script.Runtime
import CrapsStrategy.Proofs.Script.Source

/-!
# `CrapsStrategy.Proofs.Script.Names`: what scripts ask of a scope

An expression asks a scope for the names in it and for nothing else:
scopes that answer these alike give it the same value, and the same
fault (`Expr.eval_congr`).

The names that a script asks for have no points in them. The parser
takes a dotted path apart, the first segment is the name, and the rest
are members. `Reads.undotted` goes along the grammar, safe or not, and
`Script.undotted_of_compile` has it for texts that compile.
-/

set_option autoImplicit false

namespace CrapsStrategy

namespace Expr

/-! ### Scopes that answer alike -/

section

variable {scope scope' : Scope}

/-- Items that have the same values have them in a row, too. -/
theorem evalItems_congr {es : List Expr} (h : ∀ e ∈ es, e.eval scope = e.eval scope') :
    evalItems scope es = evalItems scope' es := by
  induction es with
  | nil => rfl
  | cons e es ih =>
    rw [List.forall_mem_cons] at h
    rw [evalItems, evalItems, h.1, ih h.2]

/-- Operands that have the same values stop at the same one. -/
theorem evalLogical_congr {op : LogicalOp} {es : List Expr}
    (h : ∀ e ∈ es, e.eval scope = e.eval scope') (last : Value) :
    evalLogical scope op last es = evalLogical scope' op last es := by
  induction es generalizing last with
  | nil => rfl
  | cons e es ih =>
    rw [List.forall_mem_cons] at h
    simp only [evalLogical, h.1, ih h.2]

/-- Comparisons of the same values stop at the same one. -/
theorem evalChain_congr {others : List (Comparison × Expr)}
    (h : ∀ other ∈ others, other.2.eval scope = other.2.eval scope') (left : Value) :
    evalChain scope left others = evalChain scope' left others := by
  induction others generalizing left with
  | nil => rfl
  | cons other others ih =>
    rw [List.forall_mem_cons] at h
    simp only [evalChain, h.1, ih h.2]

/-- Scopes that answer the names of an expression alike evaluate it
alike. -/
theorem eval_congr {e : Expr} (h : ∀ text, e.Mentions text → scope.named text = scope'.named text) :
    e.eval scope = e.eval scope' := by
  induction e using part_induction with
  | whole whole ih =>
    have hparts : ∀ e, Part e whole → e.eval scope = e.eval scope' := fun e he =>
      ih e he fun text htext => h text (mentions_of_part he htext)
    cases whole with
    | literal v => rfl
    | name text => exact h text .refl
    | member of field position => rfl
    | tuple items => rw [eval, eval, evalItems_congr fun e he => hparts e (.tuple he)]
    | list items => rw [eval, eval, evalItems_congr fun e he => hparts e (.list he)]
    | subscript of index position =>
      rw [eval, eval, hparts of (.container _ _ _), hparts index (.key _ _ _)]
    | call function arguments position =>
      -- The name of the function is not looked up.
      cases function with
      | name text =>
        rw [eval, eval, evalItems_congr fun e he => hparts e (.argument position he)]
      | _ => rfl
    | unary op operand => rw [eval, eval, hparts operand (.operand _ _)]
    | binary op left right =>
      rw [eval, eval, hparts left (.left _ _ _), hparts right (.right _ _ _)]
    | logical op operands =>
      rw [eval, eval, evalLogical_congr fun e he => hparts e (.logical op he)]
    | compare first others =>
      have hothers := evalChain_congr fun other ho => hparts other.2 (.other ho)
      simp only [eval, hparts first (.first _ _), hothers]
    | ifElse test body otherwise =>
      rw [eval, eval, hparts test (.test _ _ _), hparts body (.body _ _ _),
        hparts otherwise (.otherwise _ _ _)]

end

/-! ### Names without points -/

/-- A name is in an expression that it is, or in a part of it. -/
theorem mentions_iff {e : Expr} {text : String} :
    e.Mentions text ↔ e = name text ∨ ∃ part, Part part e ∧ part.Mentions text := by
  constructor
  · intro h
    cases h with
    | refl => exact .inl rfl
    | tail hwithin hpart => exact .inr ⟨_, hpart, hwithin⟩
  · rintro (rfl | ⟨part, hpart, htext⟩)
    · exact .refl
    · exact mentions_of_part hpart htext

/-- A name mentions itself alone, for it has no parts. -/
theorem eq_of_mentions_name {text other : String} (h : (name text).Mentions other) :
    other = text := by
  rcases mentions_iff.1 h with heq | ⟨part, hpart, _⟩
  · cases heq
    rfl
  · cases hpart

/-- No name in an expression has a point in it. -/
def Undotted (e : Expr) : Prop :=
  ∀ text, e.Mentions text → '.' ∉ text.toList

/-- A name is undotted by its own spelling. -/
theorem undotted_name {text : String} (h : '.' ∉ text.toList) : (name text).Undotted := by
  intro other hother
  rw [eq_of_mentions_name hother]
  exact h

/-- All others are undotted by their parts. -/
theorem undotted_of_parts {e : Expr} (hname : ∀ text, e ≠ name text)
    (hparts : ∀ part, Part part e → part.Undotted) : e.Undotted := by
  intro text htext
  rcases mentions_iff.1 htext with heq | ⟨part, hpart, hwithin⟩
  · exact absurd heq (hname text)
  · exact hparts part hpart text hwithin

end Expr

namespace Script

open CrapsStrategy.Expr TokenStream

/-- The parser takes a path apart at its points, so that its first
segment has none, and members hold no names. -/
theorem undotted_dotted (path : String) (position : Position) :
    (dotted path position).Undotted := by
  have hmembers : ∀ (members : List String) {e : Expr}, e.Undotted →
      (members.foldl (fun e member => Expr.member e member position) e).Undotted := by
    intro members
    induction members with
    | nil => exact fun h => h
    | cons member members ih =>
      intro e h
      refine ih (undotted_of_parts nofun fun part hpart => ?_)
      cases hpart
      exact h
  unfold dotted
  cases hsegments : Lexer.segments path.toList with
  | nil => exact absurd hsegments (List.splitOn_ne_nil '.' path.toList)
  | cons first rest =>
    refine hmembers (rest.map String.ofList) (undotted_name ?_)
    rw [String.toList_ofList]
    -- The first segment ends before the first point, if there is one.
    by_cases hdot : '.' ∈ path.toList
    · obtain ⟨front, back, hpath, hfront⟩ := List.eq_append_cons_of_mem hdot
      rw [hpath, Lexer.segments, List.splitOn_append_cons_self_of_not_mem hfront] at hsegments
      cases hsegments
      exact hfront
    · rw [Lexer.segments, List.splitOn_eq_singleton hdot] at hsegments
      cases hsegments
      exact hdot

/-- Operands that are joined have no name but theirs. -/
theorem undotted_joined {op : LogicalOp} {es : List Expr} (h : ∀ e ∈ es, e.Undotted) :
    (joined op es).Undotted := by
  unfold joined
  split
  · exact h _ List.mem_cons_self
  · refine undotted_of_parts nofun fun part hpart => ?_
    cases hpart with
    | logical _ he => exact h part he

/-- Comparisons in a chain have no name but those of their sides. -/
theorem undotted_chained {first : Expr} {others : List (Comparison × Expr)}
    (hfirst : first.Undotted) (hothers : ∀ other ∈ others, other.2.Undotted) :
    (chained first others).Undotted := by
  unfold chained
  split
  · exact hfirst
  · refine undotted_of_parts nofun fun part hpart => ?_
    cases hpart with
    | first => exact hfirst
    | other he => exact hothers _ he

/-- An operator has no name but those of its two sides. -/
theorem undotted_binary {op : BinaryOp} {left right : Expr} (hleft : left.Undotted)
    (hright : right.Undotted) : (binary op left right).Undotted := by
  refine undotted_of_parts nofun fun part hpart => ?_
  cases hpart with
  | left => exact hleft
  | right => exact hright

/-- An operator has no name but those of its operand. -/
theorem undotted_unary {op : UnaryOp} {operand : Expr} (h : operand.Undotted) :
    (unary op operand).Undotted := by
  refine undotted_of_parts nofun fun part hpart => ?_
  cases hpart
  exact h

/-- Whether the expressions of a phrase have names without points. -/
def Phrase.Undotted : {α : Type} → Phrase α → α → Prop
  | _, .expression, e | _, .disjunction, e | _, .conjunction, e | _, .negation, e
  | _, .comparison, e | _, .sum, e | _, .product, e | _, .factor, e | _, .power, e
  | _, .suffixed, e | _, .atom, e => e.Undotted
  | _, .disjuncts, es | _, .conjuncts, es | _, .sequence _, es => ∀ e ∈ es, e.Undotted
  | _, .links, others => ∀ other ∈ others, other.2.Undotted

/-- All names that the parser reads are without points. -/
theorem Reads.undotted {α : Type} {phrase : Phrase α} {ts us : List Located} {node : α}
    (h : Reads phrase ts node us) : phrase.Undotted node := by
  -- Names come in with `name` alone, cut at their points. All other rules
  -- put together what their premises have.
  induction h with
  | plain _ ih | positive _ ih | term _ ih | factor _ ih | unsigned _ ih | base _ ih
  | atom _ ih | group _ _ _ ih => exact ih
  | choice _ _ _ _ _ ihbody ihtest ihotherwise =>
    refine undotted_of_parts nofun fun part hpart => ?_
    cases hpart with
    | test => exact ihtest
    | body => exact ihbody
    | otherwise => exact ihotherwise
  | disjunction _ ih | conjunction _ ih => exact undotted_joined ih
  | disjunct _ ih | conjunct _ ih | last _ _ ih => exact List.forall_mem_singleton.2 ih
  | or _ _ _ ih ihes | and _ _ _ ih ihes | item _ _ _ ih ihes =>
    exact List.forall_mem_cons.2 ⟨ih, ihes⟩
  | not _ _ ih | signed _ _ ih => exact undotted_unary ih
  | comparison _ _ ihfirst ihothers => exact undotted_chained ihfirst ihothers
  | unlinked | close => exact List.forall_mem_nil _
  | link _ _ _ ih ihothers => exact List.forall_mem_cons.2 ⟨ih, ihothers⟩
  | add _ _ _ ihleft ihright | multiply _ _ _ ihleft ihright | power _ _ _ ihleft ihright =>
    exact undotted_binary ihleft ihright
  | call _ _ _ ihfunction iharguments =>
    refine undotted_of_parts nofun fun part hpart => ?_
    cases hpart with
    | function => exact ihfunction
    | argument _ he => exact iharguments part he
  | subscript _ _ _ _ ihcontainer ihindex =>
    refine undotted_of_parts nofun fun part hpart => ?_
    cases hpart with
    | container => exact ihcontainer
    | key => exact ihindex
  | literal => exact undotted_of_parts nofun nofun
  | unit =>
    refine undotted_of_parts nofun fun part hpart => ?_
    cases hpart with
    | tuple he => cases he
  | name => exact undotted_dotted _ _
  | tuple _ _ _ _ ih ihes =>
    refine undotted_of_parts nofun fun part hpart => ?_
    cases hpart with
    | tuple he => exact List.forall_mem_cons.2 ⟨ih, ihes⟩ part he
  | list _ _ ih =>
    refine undotted_of_parts nofun fun part hpart => ?_
    cases hpart with
    | list he => exact ih part he

/-- The target of an assignment is read as an expression, and is
undotted like one. -/
theorem ReadsStatement.undotted {ts us : List Located} {s : Statement}
    (h : ReadsStatement ts s us) : ∀ e ∈ s.expressions, e.Undotted := by
  cases h with
  | expression he => exact List.forall_mem_singleton.2 he.undotted
  | assign htarget _ hvalue =>
    exact List.forall_mem_cons.2 ⟨htarget.undotted, List.forall_mem_singleton.2 hvalue.undotted⟩

/-- Nothing that is read in a script has a name with a point in it. -/
theorem ReadsScript.undotted {ts : List Located} {body : List Statement}
    (h : ReadsScript ts body) : ∀ s ∈ body, ∀ e ∈ s.expressions, e.Undotted := by
  induction h with
  | done => exact List.forall_mem_nil _
  | separator _ _ ih => exact ih
  | statement hs _ _ ih => exact List.forall_mem_cons.2 ⟨hs.undotted, ih⟩

/-- No name in a text that compiles has a point in it. -/
theorem undotted_of_compile {source : String} {script : Script} (h : compile source = .ok script)
    {e : Expr} (he : script.Contains e) : e.Undotted := by
  obtain ⟨tokens, _, hstatements, hcheck⟩ := compile_eq_ok h
  have hreads : ReadsScript tokens script.body :=
    readsScript_of_check hstatements (check_eq_ok.1 hcheck)
  obtain ⟨s, hs, whole, hwhole, hwithin⟩ := he
  intro text htext
  exact hreads.undotted s hs whole hwhole text (htext.trans hwithin)

end Script

end CrapsStrategy
