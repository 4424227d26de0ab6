import CrapsStrategy.Proofs.Script.Runtime
import CrapsStrategy.Proofs.Script.Source

/-!
# `CrapsStrategy.Proofs.Script.Shape`: scripts without their places

The shape of an expression leaves its positions out, and has its texts
changed by a function. The sandbox looks at neither, so a script is let
through or not by its shape (`Script.check_of_shape`), and a safe
expression has the value of its shape when the texts are left as they
are (`Safe.eval_eq_of_shape`).
-/

set_option autoImplicit false

namespace CrapsStrategy

/-- A value with its text changed, if it is one. -/
def Value.mapText (f : String → String) : Value → Value
  | text s => text (f s)
  | v => v

/-- Texts that are left as they are leave the value. -/
theorem Value.mapText_id (v : Value) : v.mapText id = v := by
  cases v <;> rfl

namespace Expr

mutual

/-- An expression without its positions, its texts changed. -/
def shape (f : String → String) : Expr → Expr
  | literal v => literal (v.mapText f)
  | name text => name text
  | member of field _ => member (of.shape f) field .start
  | tuple items => tuple (shapeAll f items)
  | list items => list (shapeAll f items)
  | subscript of index _ => subscript (of.shape f) (index.shape f) .start
  | call function arguments _ => call (function.shape f) (shapeAll f arguments) .start
  | unary op operand => unary op (operand.shape f)
  | binary op left right => binary op (left.shape f) (right.shape f)
  | logical op operands => logical op (shapeAll f operands)
  | compare first others => compare (first.shape f) (shapeOthers f others)
  | ifElse test body otherwise => ifElse (test.shape f) (body.shape f) (otherwise.shape f)

/-- Expressions without their positions, one by one. -/
def shapeAll (f : String → String) : List Expr → List Expr
  | [] => []
  | e :: es => e.shape f :: shapeAll f es

/-- The right sides of a chain without their positions, their operators
as they are. -/
def shapeOthers (f : String → String) : List (Comparison × Expr) → List (Comparison × Expr)
  | [] => []
  | (op, e) :: others => (op, e.shape f) :: shapeOthers f others

end

variable {f : String → String}

/-! ### The sandbox -/

/-- A list of expressions is safe by its shapes, if each of them is. -/
theorem forall_safe_shapeAll {es : List Expr} (h : ∀ e ∈ es, ((e.shape f).Safe ↔ e.Safe)) :
    (∀ e ∈ shapeAll f es, e.Safe) ↔ ∀ e ∈ es, e.Safe := by
  induction es with
  | nil => simp [shapeAll]
  | cons e es ih =>
    rw [List.forall_mem_cons] at h
    rw [shapeAll, List.forall_mem_cons, List.forall_mem_cons, h.1, ih h.2]

/-- The right sides of a chain are safe by their shapes, if each of them
is. -/
theorem forall_safe_shapeOthers {others : List (Comparison × Expr)}
    (h : ∀ other ∈ others, ((other.2.shape f).Safe ↔ other.2.Safe)) :
    (∀ other ∈ shapeOthers f others, other.2.Safe) ↔ ∀ other ∈ others, other.2.Safe := by
  induction others with
  | nil => simp [shapeOthers]
  | cons other others ih =>
    rw [List.forall_mem_cons] at h
    rw [shapeOthers, List.forall_mem_cons, List.forall_mem_cons, h.1, ih h.2]

/-- A key stays one, since its text is changed and not its kind. -/
theorem isLiteralKey_shape (e : Expr) : (e.shape f).isLiteralKey = e.isLiteralKey := by
  cases e with
  | literal v => cases v <;> rfl
  | unary op operand =>
    cases op with
    | neg =>
      cases operand with
      | literal v => cases v <;> rfl
      | _ => rfl
    | _ => rfl
  | _ => rfl

/-- Only a name has the shape of a name, which the sandbox asks of what
is called. -/
theorem shape_eq_name_iff {e : Expr} {text : String} : e.shape f = name text ↔ e = name text := by
  cases e <;> simp [shape]

/-- The sandbox looks at nothing that the shape leaves out. -/
theorem safe_shape (e : Expr) : (e.shape f).Safe ↔ e.Safe := by
  induction e using part_induction with
  | whole e ih =>
    cases e with
    | literal v => simp [shape]
    | name text => simp [shape]
    | member of field position => simp [shape]
    | tuple items =>
      rw [shape, safe_tuple, safe_tuple]
      exact forall_safe_shapeAll fun e he => ih e (.tuple he)
    | list items =>
      rw [shape, safe_list, safe_list]
      exact forall_safe_shapeAll fun e he => ih e (.list he)
    | subscript of index position =>
      rw [shape, safe_subscript, safe_subscript, isLiteralKey_shape, ih of (.container _ _ _)]
    | call function arguments position =>
      rw [shape, safe_call, safe_call, forall_safe_shapeAll fun e he => ih e (.argument _ he)]
      simp only [shape_eq_name_iff]
    | unary op operand =>
      rw [shape, safe_unary, safe_unary, ih operand (.operand _ _)]
    | binary op left right =>
      rw [shape, safe_binary, safe_binary, ih left (.left _ _ _), ih right (.right _ _ _)]
    | logical op operands =>
      rw [shape, safe_logical, safe_logical]
      exact forall_safe_shapeAll fun e he => ih e (.logical _ he)
    | compare first others =>
      rw [shape, safe_compare, safe_compare, ih first (.first _ _),
        forall_safe_shapeOthers fun other hother => ih other.2 (.other hother)]
    | ifElse test body otherwise =>
      rw [shape, safe_ifElse, safe_ifElse, ih test (.test _ _ _), ih body (.body _ _ _),
        ih otherwise (.otherwise _ _ _)]

/-! ### Evaluation -/

section

variable {scope : Scope}

/-- Items have the values of their shapes. -/
theorem evalItems_shapeAll {es : List Expr}
    (h : ∀ e ∈ es, (e.shape id).eval scope = e.eval scope) :
    evalItems scope (shapeAll id es) = evalItems scope es := by
  induction es with
  | nil => rfl
  | cons e es ih =>
    rw [List.forall_mem_cons] at h
    rw [shapeAll, evalItems, evalItems, h.1, ih h.2]

/-- Operands stop at the same place as their shapes. -/
theorem evalLogical_shapeAll {op : LogicalOp} {last : Value} {es : List Expr}
    (h : ∀ e ∈ es, (e.shape id).eval scope = e.eval scope) :
    evalLogical scope op last (shapeAll id es) = evalLogical scope op last es := by
  induction es generalizing last with
  | nil => rfl
  | cons e es ih =>
    rw [List.forall_mem_cons] at h
    rw [shapeAll, evalLogical, evalLogical, h.1]
    simp only [ih h.2]

/-- A chain stops at the same place as its shape. -/
theorem evalChain_shapeOthers {left : Value} {others : List (Comparison × Expr)}
    (h : ∀ other ∈ others, (other.2.shape id).eval scope = other.2.eval scope) :
    evalChain scope left (shapeOthers id others) = evalChain scope left others := by
  induction others generalizing left with
  | nil => rfl
  | cons other others ih =>
    rw [List.forall_mem_cons] at h
    rw [shapeOthers, evalChain, evalChain, h.1]
    simp only [ih h.2]

/-- A safe expression never fails at a place, so its places do not
matter. -/
theorem Safe.eval_shape {e : Expr} (h : e.Safe) (scope : Scope) :
    (e.shape id).eval scope = e.eval scope := by
  induction e using part_induction with
  | whole whole ih =>
    -- The parts of a safe expression are safe, and a member, which alone
    -- fails at its place, is not.
    have hparts : ∀ e, Part e whole → (e.shape id).eval scope = e.eval scope := fun e he =>
      ih e he (h.part he)
    cases whole with
    | literal v => rw [shape, Value.mapText_id]
    | name text => rfl
    | member of field position => exact absurd h (not_safe_member _ _ _)
    | tuple items =>
      rw [shape, eval, eval, evalItems_shapeAll fun e he => hparts e (.tuple he)]
    | list items =>
      rw [shape, eval, eval, evalItems_shapeAll fun e he => hparts e (.list he)]
    | subscript of index position =>
      rw [shape, eval, eval, hparts of (.container _ _ _), hparts index (.key _ _ _)]
    | call function arguments position =>
      obtain ⟨⟨text, hname, _⟩, _⟩ := safe_call.1 h
      subst hname
      rw [shape, shape, eval, eval,
        evalItems_shapeAll fun e he => hparts e (.argument position he)]
    | unary op operand => rw [shape, eval, eval, hparts operand (.operand _ _)]
    | binary op left right =>
      rw [shape, eval, eval, hparts left (.left _ _ _), hparts right (.right _ _ _)]
    | logical op operands =>
      rw [shape, eval, eval, evalLogical_shapeAll fun e he => hparts e (.logical op he)]
    | compare first others =>
      rw [shape, eval, eval, hparts first (.first _ _)]
      simp only [evalChain_shapeOthers fun other ho => hparts other.2 (.other ho)]
    | ifElse test body otherwise =>
      rw [shape, eval, eval, hparts test (.test _ _ _), hparts body (.body _ _ _),
        hparts otherwise (.otherwise _ _ _)]

end

end Expr

/-! ### Statements and scripts -/

/-- A statement without its positions, its texts changed. -/
def Statement.shape (f : String → String) : Statement → Statement
  | expression e => expression (e.shape f)
  | assign target op value _ => assign (target.shape f) op (value.shape f) .start
  | forbidden word _ => forbidden word .start

/-- A script without its positions, its texts changed. -/
def Script.shape (f : String → String) (script : Script) : Script :=
  { body := script.body.map (Statement.shape f) }

section

variable {f : String → String}

/-- A statement is let through by its shape. -/
theorem Statement.check_shape_eq_ok (s : Statement) :
    (s.shape f).check = .ok () ↔ s.check = .ok () := by
  cases s with
  | expression e => exact e.safe_shape
  | assign target op value position =>
    rw [check_eq_ok, check_eq_ok]
    simp [shape, Allowed, expressions, Expr.safe_shape, Expr.shape_eq_name_iff]
  | forbidden word position =>
    rw [check_eq_ok, check_eq_ok]
    exact iff_of_false (fun h => h.1) (fun h => h.1)

/-- A script is let through by its shape. -/
theorem Script.check_shape_eq_ok (script : Script) :
    (script.shape f).check = .ok () ↔ script.check = .ok () := by
  rw [check_eq_ok, check_eq_ok]
  simp [shape, Statement.check_shape_eq_ok]

/-- A script of one expression is one by its shape. -/
theorem Script.expression?_shape (script : Script) :
    (script.shape f).expression? = script.expression?.map (Expr.shape f) := by
  obtain ⟨body⟩ := script
  match body with
  | [] => rfl
  | [s] => cases s <;> rfl
  | s :: s' :: rest => cases s <;> rfl

/-- Safe scripts of one shape have one value. -/
theorem Script.value_eq_of_shape {script other : Script} (h : script.check = .ok ())
    (hother : other.check = .ok ()) (hshape : other.shape id = script.shape id) (scope : Scope) :
    other.value scope = script.value scope := by
  have hvalue {script : Script} (h : script.check = .ok ()) :
      (script.shape id).value scope = script.value scope := by
    rw [value, value, expression?_shape]
    cases he : script.expression? with
    | none => rfl
    | some e => exact (safe_of_contains h (contains_of_expression? he)).eval_shape scope
  rw [← hvalue h, ← hvalue hother, hshape]

end

end CrapsStrategy
