import CrapsStrategy.Proofs.Except
import CrapsStrategy.Script.Sandbox
import Mathlib.Logic.Relation

/-!
# `CrapsStrategy.Proofs.Script.Sandbox`: what the sandbox lets through

The check of an expression passes exactly when the checks of its parts
do and its own node is allowed; there is one equivalence for each
constructor. From them `Safe` goes down to every part, and so to all
that is within an expression (`Safe.within`). The check does not visit
called functions and subscript keys, but what may stand there is safe
by its shape.

`Expr.Allowed` and `Statement.Allowed` say what is allowed without a
word about the check.
-/

set_option autoImplicit false

namespace CrapsStrategy

namespace Expr

/-- An expression that the sandbox lets through. -/
def Safe (e : Expr) : Prop :=
  e.check = .ok ()

variable {e : Expr}

/-- A list passes where all in it do. -/
theorem checkAll_eq_ok {es : List Expr} : checkAll es = .ok () ↔ ∀ e ∈ es, e.Safe := by
  induction es with
  | nil => simp [checkAll]
  | cons e es ih => rw [checkAll, seq_eq_ok, ih, List.forall_mem_cons, Safe]

/-- The right sides of a chain are checked one by one, their operators
are not. -/
theorem checkOthers_eq_ok {others : List (Comparison × Expr)} :
    checkOthers others = .ok () ↔ ∀ other ∈ others, other.2.Safe := by
  induction others with
  | nil => simp [checkOthers]
  | cons other others ih => rw [checkOthers, seq_eq_ok, ih, List.forall_mem_cons, Safe]

/-- A literal is safe, of any kind. -/
@[simp]
theorem safe_literal (v : Value) : (literal v).Safe := rfl

/-- A name is safe. Whether it has a value is seen as it runs. -/
@[simp]
theorem safe_name (text : String) : (name text).Safe := rfl

/-- No member is safe, whatever it belongs to. -/
@[simp]
theorem not_safe_member (of : Expr) (field : String) (position : Position) :
    ¬ (member of field position).Safe := by
  intro h
  cases h

/-- A tuple is safe by its items. -/
@[simp]
theorem safe_tuple {items : List Expr} : (tuple items).Safe ↔ ∀ e ∈ items, e.Safe := by
  show checkAll items = .ok () ↔ _
  exact checkAll_eq_ok

/-- A list is safe by its items. -/
@[simp]
theorem safe_list {items : List Expr} : (list items).Safe ↔ ∀ e ∈ items, e.Safe := by
  show checkAll items = .ok () ↔ _
  exact checkAll_eq_ok

/-- A subscript is safe by its container and by the shape of its key,
which the check does not enter. -/
@[simp]
theorem safe_subscript {of index : Expr} {position : Position} :
    (subscript of index position).Safe ↔ index.isLiteralKey = true ∧ of.Safe := by
  show (if index.isLiteralKey = true then of.check else .error _) = .ok () ↔ _
  exact ite_error_eq_ok

/-- A call is safe by its arguments and by the name that it calls. What
is called may not be computed. -/
@[simp]
theorem safe_call {function : Expr} {arguments : List Expr} {position : Position} :
    (call function arguments position).Safe ↔
      (∃ text, function = name text ∧ (Builtin.ofName? text).isSome = true) ∧
        ∀ e ∈ arguments, e.Safe := by
  cases function with
  | name text =>
    show (if (Builtin.ofName? text).isSome = true then checkAll arguments else .error _) = _ ↔ _
    rw [ite_error_eq_ok, checkAll_eq_ok]
    simp
  | _ =>
    show Except.error _ = .ok () ↔ _
    simp

/-- An operator is safe by its operand. -/
@[simp]
theorem safe_unary {op : UnaryOp} {operand : Expr} : (unary op operand).Safe ↔ operand.Safe :=
  Iff.rfl

/-- An operator is safe by its two sides. -/
@[simp]
theorem safe_binary {op : BinaryOp} {left right : Expr} :
    (binary op left right).Safe ↔ left.Safe ∧ right.Safe := by
  show (left.check >>= fun _ => right.check) = .ok () ↔ _
  exact seq_eq_ok

/-- `and` and `or` are safe by all their operands. -/
@[simp]
theorem safe_logical {op : LogicalOp} {operands : List Expr} :
    (logical op operands).Safe ↔ ∀ e ∈ operands, e.Safe := by
  show checkAll operands = .ok () ↔ _
  exact checkAll_eq_ok

/-- A chain is safe by all that it compares. -/
@[simp]
theorem safe_compare {first : Expr} {others : List (Comparison × Expr)} :
    (compare first others).Safe ↔ first.Safe ∧ ∀ other ∈ others, other.2.Safe := by
  show (first.check >>= fun _ => checkOthers others) = .ok () ↔ _
  rw [seq_eq_ok, checkOthers_eq_ok, Safe]

/-- A choice is safe by its test and both branches, also the one that is
not taken. -/
@[simp]
theorem safe_ifElse {test body otherwise : Expr} :
    (ifElse test body otherwise).Safe ↔ test.Safe ∧ body.Safe ∧ otherwise.Safe := by
  show (test.check >>= fun _ => body.check >>= fun _ => otherwise.check) = .ok () ↔ _
  rw [seq_eq_ok, seq_eq_ok, Safe, Safe, Safe]

/-! ### Parts -/

/-- The expressions that an expression is made of, subscript keys and
called functions among them. -/
inductive Part : Expr → Expr → Prop
  | owner (of : Expr) (field : String) (position : Position) : Part of (member of field position)
  | tuple {e : Expr} {items : List Expr} (he : e ∈ items) : Part e (tuple items)
  | list {e : Expr} {items : List Expr} (he : e ∈ items) : Part e (list items)
  | container (of index : Expr) (position : Position) : Part of (subscript of index position)
  | key (of index : Expr) (position : Position) : Part index (subscript of index position)
  | function (function : Expr) (arguments : List Expr) (position : Position) :
      Part function (call function arguments position)
  | argument {e function : Expr} {arguments : List Expr} (position : Position)
      (he : e ∈ arguments) : Part e (call function arguments position)
  | operand (op : UnaryOp) (operand : Expr) : Part operand (unary op operand)
  | left (op : BinaryOp) (left right : Expr) : Part left (binary op left right)
  | right (op : BinaryOp) (left right : Expr) : Part right (binary op left right)
  | logical {e : Expr} {operands : List Expr} (op : LogicalOp) (he : e ∈ operands) :
      Part e (logical op operands)
  | first (first : Expr) (others : List (Comparison × Expr)) : Part first (compare first others)
  | other {op : Comparison} {e first : Expr} {others : List (Comparison × Expr)}
      (he : (op, e) ∈ others) : Part e (compare first others)
  | test (test body otherwise : Expr) : Part test (ifElse test body otherwise)
  | body (test body otherwise : Expr) : Part body (ifElse test body otherwise)
  | otherwise (test body otherwise : Expr) : Part otherwise (ifElse test body otherwise)

/-- An expression somewhere in another, at any depth. -/
def Within (e whole : Expr) : Prop :=
  Relation.ReflTransGen Part e whole

/-- A literal key is safe in itself, though the check does not go into
it. -/
theorem safe_of_isLiteralKey {e : Expr} (h : e.isLiteralKey = true) : e.Safe := by
  unfold isLiteralKey at h
  split at h
  · rfl
  · rfl
  · rfl
  · cases h

/-- The parts of a safe expression are safe. -/
theorem Safe.part {e whole : Expr} (h : whole.Safe) (hpart : Part e whole) : e.Safe := by
  cases hpart with
  | owner => exact absurd h (not_safe_member _ _ _)
  | tuple he => exact safe_tuple.1 h e he
  | list he => exact safe_list.1 h e he
  | container => exact (safe_subscript.1 h).2
  | key => exact safe_of_isLiteralKey (safe_subscript.1 h).1
  | function =>
    obtain ⟨⟨text, hname, _⟩, _⟩ := safe_call.1 h
    rw [hname]
    exact safe_name text
  | argument _ he => exact (safe_call.1 h).2 e he
  | operand => exact safe_unary.1 h
  | left => exact (safe_binary.1 h).1
  | right => exact (safe_binary.1 h).2
  | logical _ he => exact safe_logical.1 h e he
  | first => exact (safe_compare.1 h).1
  | other he => exact (safe_compare.1 h).2 _ he
  | test => exact (safe_ifElse.1 h).1
  | body => exact (safe_ifElse.1 h).2.1
  | otherwise => exact (safe_ifElse.1 h).2.2

/-- All that is within a safe expression is safe. -/
theorem Safe.within {e whole : Expr} (h : whole.Safe) (hwithin : Within e whole) : e.Safe := by
  induction hwithin using Relation.ReflTransGen.head_induction_on with
  | refl => exact h
  | head hpart _ ih => exact ih.part hpart

/-! ### What safe expressions look like -/

/-- The functions that scripts may call. -/
def callable : List String :=
  ["min", "max", "abs", "round", "int", "float", "floor", "ceil"]

/-- A key that is written out. -/
def WrittenKey (index : Expr) : Prop :=
  (∃ i, index = literal (.int i)) ∨ (∃ i, index = unary .neg (literal (.int i))) ∨
    ∃ s, index = literal (.text s)

/-- What the sandbox allows of an expression, whatever its parts are:
a call of one of eight functions by its name, a subscript by a key that
is written out, and no member. -/
def Allowed : Expr → Prop
  | call function _ _ => ∃ text ∈ callable, function = name text
  | subscript _ index _ => index.WrittenKey
  | member _ _ _ => False
  | _ => True

/-- The functions are found by the eight names and by no other. -/
theorem isSome_ofName?_iff {text : String} :
    (Builtin.ofName? text).isSome = true ↔ text ∈ callable := by
  have hnames : callable = Builtin.all.map Builtin.name := rfl
  rw [Builtin.ofName?, List.find?_isSome, hnames, List.mem_map]
  simp only [beq_iff_eq]

/-- The check of a key knows these three ways to write one. -/
theorem writtenKey_of_isLiteralKey {index : Expr} (h : index.isLiteralKey = true) :
    index.WrittenKey := by
  unfold isLiteralKey at h
  split at h
  · exact .inl ⟨_, rfl⟩
  · exact .inr (.inr ⟨_, rfl⟩)
  · exact .inr (.inl ⟨_, rfl⟩)
  · cases h

/-- What the check lets through is allowed. -/
theorem Safe.allowed {e : Expr} (h : e.Safe) : e.Allowed := by
  cases e with
  | call function arguments position =>
    obtain ⟨⟨text, hname, hbuiltin⟩, _⟩ := safe_call.1 h
    exact ⟨text, isSome_ofName?_iff.1 hbuiltin, hname⟩
  | subscript of index position => exact writtenKey_of_isLiteralKey (safe_subscript.1 h).1
  | member of field position => exact not_safe_member _ _ _ h
  | _ => trivial

end Expr

/-! ### Statements and scripts -/

/-- The expressions of a statement, the target of an assignment among
them. -/
def Statement.expressions : Statement → List Expr
  | expression e => [e]
  | assign target _ value _ => [target, value]
  | forbidden _ _ => []

/-- An expression somewhere in a script, at any depth. -/
def Script.Contains (script : Script) (e : Expr) : Prop :=
  ∃ s ∈ script.body, ∃ whole ∈ s.expressions, e.Within whole

/-- What the sandbox allows of a statement: expressions, and assignments
to plain names. -/
def Statement.Allowed : Statement → Prop
  | expression _ => True
  | assign target _ _ _ => ∃ text, target = .name text
  | forbidden _ _ => False

/-- A safe statement is allowed, and its expressions are safe. -/
theorem Statement.check_eq_ok {s : Statement} :
    s.check = .ok () ↔ s.Allowed ∧ ∀ e ∈ s.expressions, e.Safe := by
  cases s with
  | expression e => simp [check, Allowed, expressions, Expr.Safe]
  | assign target op value position =>
    cases target with
    | name text => simp [check, Allowed, expressions, Expr.Safe, Expr.check]
    | _ => simp [check, Allowed]
  | forbidden word position => simp [check, Allowed]

/-- The statements are checked one by one. -/
theorem Script.check_eq_ok {script : Script} :
    script.check = .ok () ↔ ∀ s ∈ script.body, s.check = .ok () := by
  unfold Script.check
  induction script.body with
  | nil => exact ⟨fun _ _ hs => absurd hs List.not_mem_nil, fun _ => rfl⟩
  | cons s rest ih =>
    show (s.check >>= fun _ => rest.forM Statement.check) = .ok () ↔ _
    rw [seq_eq_ok, ih, List.forall_mem_cons]

/-- All that a safe script contains is safe. -/
theorem Script.safe_of_contains {script : Script} (h : script.check = .ok ()) {e : Expr}
    (he : script.Contains e) : e.Safe := by
  obtain ⟨s, hs, whole, hwhole, hwithin⟩ := he
  have hsafe := (Statement.check_eq_ok.1 (check_eq_ok.1 h s hs)).2 whole hwhole
  exact hsafe.within hwithin

end CrapsStrategy
