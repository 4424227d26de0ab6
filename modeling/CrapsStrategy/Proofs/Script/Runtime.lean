import CrapsStrategy.Proofs.Script.Operation
import CrapsStrategy.Proofs.Script.Run
import CrapsStrategy.Proofs.Script.Sandbox

/-!
# `CrapsStrategy.Proofs.Script.Runtime`: how safe scripts fail

What the sandbox lets through can still fail as it runs, but only in
two ways: a name of the script has no value, or a computation has no
result. `Fault.Runtime` are these faults. A scope may refuse a name
with any fault it likes; the script sees a name without a value.

The check and the evaluation walk the same tree by different ways: the
check passes over subscript keys and called functions. So the induction
(`part_induction`) goes by parts, those two among them, and every part
of a safe expression is safe. `runs_of_check` has the result for whole
scripts and for each expression in them.
-/

set_option autoImplicit false

namespace CrapsStrategy

/-- What a safe script may fail with: one of its `names` has no value,
or a computation has no result. Calling what is no function is not
among them. -/
def Fault.Runtime (names : String → Prop) : Fault → Prop
  | unknownVariable name => names name
  | evaluation fault => ¬ fault.Uncallable
  | syntaxAt _ _ | unknownPath _ | disallowedAt _ _ => False

/-- A fault of a part is one of the whole, which has more names. -/
theorem Fault.Runtime.mono {names wider : String → Prop} {fault : Fault}
    (h : fault.Runtime names) (hwider : ∀ name, names name → wider name) :
    fault.Runtime wider := by
  cases fault with
  | unknownVariable name => exact hwider name h
  | evaluation fault => exact h
  | _ => exact h.elim

/-- A computation that fails only as safe scripts do. -/
abbrev Runs {α : Type} (names : String → Prop) (x : Except Fault α) : Prop :=
  FaultsIn (Fault.Runtime names) x

section

variable {names : String → Prop} {scope : Scope}

/-- A computation of a script fails in no other way. -/
theorem runs_evaluated {α : Type} {x : Except EvalFault α} (h : Computes x) :
    Runs names (evaluated x) := by
  cases x with
  | ok a => exact .ok a
  | error fault => exact FaultsIn.error_iff.2 (h fault rfl)

/-- Whatever the fault of the scope, the name is what has no value. -/
theorem runs_named {name : String} (h : names name) : Runs names (scope.named name) := by
  unfold Scope.named
  split
  · exact .ok _
  · exact FaultsIn.error_iff.2 h

namespace Expr

/-- Items in a row fail as one of them does. -/
theorem runs_evalItems {es : List Expr} (h : ∀ e ∈ es, Runs names (e.eval scope)) :
    Runs names (evalItems scope es) := by
  induction es with
  | nil => exact .ok _
  | cons e es ih =>
    rw [List.forall_mem_cons] at h
    exact h.1.bind fun _ _ => (ih h.2).bind fun _ _ => .pure _

/-- Operands fail as one of them does, and those behind the deciding one
are never asked. -/
theorem runs_evalLogical {op : LogicalOp} {last : Value} {es : List Expr}
    (h : ∀ e ∈ es, Runs names (e.eval scope)) : Runs names (evalLogical scope op last es) := by
  induction es generalizing last with
  | nil => exact .ok last
  | cons e es ih =>
    rw [List.forall_mem_cons] at h
    exact h.1.bind fun v _ => .ite (.pure v) (ih h.2)

/-- A chain fails as one of its sides does, or on a comparison of two. -/
theorem runs_evalChain (left : Value) {others : List (Comparison × Expr)}
    (h : ∀ other ∈ others, Runs names (other.2.eval scope)) :
    Runs names (evalChain scope left others) := by
  induction others generalizing left with
  | nil => exact .ok true
  | cons other others ih =>
    rw [List.forall_mem_cons] at h
    refine h.1.bind fun right _ => (runs_evaluated (computes_compareValues _ _ _)).bind ?_
    exact fun _ _ => .ite (ih right h.2) (.pure false)

end Expr

end

/-! ### Expressions -/

namespace Expr

/-- Parts are smaller, and the induction by parts comes to an end. -/
theorem sizeOf_lt_of_part {e whole : Expr} (h : Part e whole) : sizeOf e < sizeOf whole := by
  cases h with
  | tuple he | list he | argument _ he | logical _ he =>
    have hlt := List.sizeOf_lt_of_mem he
    simp only [tuple.sizeOf_spec, list.sizeOf_spec, call.sizeOf_spec, logical.sizeOf_spec]
    omega
  | other he =>
    have hlt := List.sizeOf_lt_of_mem he
    simp only [Prod.mk.sizeOf_spec] at hlt
    simp only [compare.sizeOf_spec]
    omega
  | _ =>
    simp only [member.sizeOf_spec, subscript.sizeOf_spec, call.sizeOf_spec, unary.sizeOf_spec,
      binary.sizeOf_spec, compare.sizeOf_spec, ifElse.sizeOf_spec]
    omega

/-- What passes from the parts of an expression to the whole holds of
every expression. -/
theorem part_induction {motive : Expr → Prop}
    (whole : ∀ whole, (∀ e, Part e whole → motive e) → motive whole) (e : Expr) : motive e :=
  whole e fun part hpart =>
    have := sizeOf_lt_of_part hpart
    part_induction whole part
termination_by sizeOf e

/-- A name that is somewhere in an expression. -/
def Mentions (e : Expr) (text : String) : Prop :=
  (name text).Within e

/-- What a part mentions is mentioned. -/
theorem mentions_of_part {e whole : Expr} (h : Part e whole) {text : String}
    (htext : e.Mentions text) : whole.Mentions text :=
  Relation.ReflTransGen.tail htext h

/-- A safe expression fails on its names and its computations only. -/
theorem Safe.runs_eval {e : Expr} (h : e.Safe) (scope : Scope) :
    Runs e.Mentions (e.eval scope) := by
  induction e using part_induction with
  | whole whole ih =>
    -- A part mentions no more than the whole, so its faults are those of
    -- the whole.
    have hparts : ∀ e, Part e whole → Runs whole.Mentions (e.eval scope) := fun e he =>
      (ih e he (h.part he)).mono fun _ hfault => hfault.mono fun _ => mentions_of_part he
    cases whole with
    | literal v => exact .ok v
    | name text => exact runs_named .refl
    | member of field position => exact absurd h (not_safe_member _ _ _)
    | tuple items =>
      exact (runs_evalItems fun e he => hparts e (.tuple he)).bind fun _ _ => .pure _
    | list items =>
      exact (runs_evalItems fun e he => hparts e (.list he)).bind fun _ _ => .pure _
    | subscript of index position =>
      refine (hparts of (.container _ _ _)).bind fun _ _ => ?_
      refine (hparts index (.key _ _ _)).bind fun _ _ => ?_
      exact runs_evaluated (computes_subscriptOperation _ _)
    | call function arguments position =>
      obtain ⟨⟨text, hname, hbuiltin⟩, _⟩ := safe_call.1 h
      obtain ⟨f, hf⟩ := Option.isSome_iff_exists.1 hbuiltin
      subst hname
      rw [eval]
      refine (runs_evalItems fun e he => hparts e (.argument position he)).bind fun values _ => ?_
      rw [hf]
      exact runs_evaluated (f.computes_apply values)
    | unary op operand =>
      refine (hparts operand (.operand _ _)).bind fun _ _ => ?_
      exact runs_evaluated (computes_unaryOperation _ _)
    | binary op left right =>
      refine (hparts left (.left _ _ _)).bind fun _ _ => ?_
      refine (hparts right (.right _ _ _)).bind fun _ _ => ?_
      exact runs_evaluated (computes_binaryOperation _ _ _)
    | logical op operands => exact runs_evalLogical fun e he => hparts e (.logical op he)
    | compare first others =>
      refine (hparts first (.first _ _)).bind fun left _ => ?_
      have hothers := runs_evalChain left fun other ho => hparts other.2 (.other ho)
      exact hothers.bind fun _ _ => .pure _
    | ifElse test body otherwise =>
      refine (hparts test (.test _ _ _)).bind fun _ _ => ?_
      exact .ite (hparts body (.body _ _ _)) (hparts otherwise (.otherwise _ _ _))

end Expr

/-! ### Statements and scripts -/

/-- A name that is somewhere in a statement, as its target or in an
expression. -/
def Statement.Mentions (s : Statement) (text : String) : Prop :=
  ∃ e ∈ s.expressions, e.Mentions text

/-- A name that is somewhere in a script. -/
def Script.Mentions (script : Script) (text : String) : Prop :=
  script.Contains (.name text)

/-- A statement that is let through fails on its names and its
computations. An assignment with an operator asks for its own target,
too. -/
theorem Statement.runs_run {s : Statement} (h : s.check = .ok ()) (base : Scope) (run : Run) :
    Runs s.Mentions (s.run base run) := by
  obtain ⟨hallowed, hsafe⟩ := check_eq_ok.1 h
  have hexpressions : ∀ e ∈ s.expressions, ∀ scope, Runs s.Mentions (e.eval scope) :=
    fun e he scope => ((hsafe e he).runs_eval scope).mono fun _ hfault =>
      hfault.mono fun _ hname => ⟨e, he, hname⟩
  cases s with
  | expression e => exact (hexpressions e List.mem_cons_self _).bind fun _ _ => .pure _
  | assign target op value position =>
    obtain ⟨name, htarget⟩ := hallowed
    subst htarget
    refine FaultsIn.bind ?_ fun _ _ => .pure _
    refine (hexpressions value (by simp [expressions]) _).bind fun right _ => ?_
    cases op with
    | none => exact .pure right
    | some op =>
      have hname : (assign (.name name) (some op) value position).Mentions name :=
        ⟨.name name, List.mem_cons_self, .refl⟩
      refine (runs_named hname).bind fun left _ => ?_
      exact runs_evaluated (computes_binaryOperation op left right)
  | forbidden word position => exact hallowed.elim

/-- A script that passes the check fails on its names and its
computations only, whatever it runs over, and so does each expression
in it. -/
theorem Script.runs_of_check {script : Script} (h : script.check = .ok ()) :
    (∀ base vars run fault, script.run base vars = (run, some fault) →
      fault.Runtime script.Mentions) ∧
    ∀ e, script.Contains e → ∀ scope fault, e.eval scope = .error fault →
      fault.Runtime e.Mentions := by
  constructor
  · intro base vars run fault hrun
    obtain ⟨done, failing, later, hbody, _, hfailing⟩ := runStatements_eq_some_iff.1 hrun
    have hmem : failing ∈ script.body := by
      rw [hbody]
      exact List.mem_append_right done List.mem_cons_self
    have hruntime := Statement.runs_run (check_eq_ok.1 h failing hmem) base run fault hfailing
    exact hruntime.mono fun name ⟨whole, hwhole, hwithin⟩ =>
      ⟨failing, hmem, whole, hwhole, hwithin⟩
  · intro e he scope
    exact (safe_of_contains h he).runs_eval scope

/-- The larger of the units and the wins of a streak. -/
def streakBet : Expr :=
  .call (.name "max")
    [.name "units", .subscript (.name "streak") (.literal (.text "wins")) ⟨2, 23⟩] ⟨2, 10⟩

/-- Two assignments, of which the second asks for a streak. -/
def streakScript : Script :=
  { body := [
      .assign (.name "units") none (.literal (.int 2)) ⟨1, 1⟩,
      .assign (.name "bet") none streakBet ⟨2, 1⟩] }

/-- The scope refuses the streak as a path that it does not know, and
the script faults on a name without a value. -/
theorem runs_streakScript :
    let base : Scope := fun path => .error (.unknownPath path)
    let fault := Fault.unknownVariable "streak"
    streakScript.check = .ok () ∧
      ((streakScript.run base .empty).2 = some fault ∧ fault.Runtime streakScript.Mentions) ∧
      streakBet.eval (.overlay (.ofList [("units", .int 2)]) base) = .error fault ∧
      fault.Runtime streakBet.Mentions := by
  intro base fault
  have hcheck : streakScript.check = .ok () := rfl
  have hrun : (streakScript.run base .empty).2 = some fault := by
    rfl
  have heval : streakBet.eval (.overlay (.ofList [("units", .int 2)]) base) = .error fault := by
    rfl
  have hcontains : streakScript.Contains streakBet :=
    ⟨_, .tail _ (.head _), _, .tail _ (.head _), .refl⟩
  obtain ⟨hscript, hexpression⟩ := Script.runs_of_check hcheck
  exact ⟨hcheck, ⟨hrun, hscript base .empty _ fault (Prod.ext rfl hrun)⟩, heval,
    hexpression streakBet hcontains _ fault heval⟩

end CrapsStrategy
