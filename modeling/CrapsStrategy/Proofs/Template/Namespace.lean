import CrapsStrategy.Proofs.Rule.Firing
import CrapsStrategy.Proofs.Script.Names
import CrapsStrategy.Proofs.Snapshot

/-!
# `CrapsStrategy.Proofs.Template.Namespace`: two namespaces of a snapshot

Rules and steps look names up in the snapshot, templates in its flat
namespace. The one answers by its fields, the other by the list of
their names, and the list is short of four that are answered: two
aliases and the maps of bets and variables. The snapshot `Omits` these
names, unless a user variable has one of them.

Without the omitted names the two agree on every name without a point
(`named_merged`). Scripts have no other names, so this lifts to all
expressions that compile (`eval_merged`).
-/

set_option autoImplicit false

namespace CrapsStrategy

namespace Snapshot

/-! ### Names that are omitted -/

/-- A name that the snapshot answers by a field, and the flat namespace
does not know. -/
def Omits (s : Snapshot) (name : String) : Prop :=
  name ∈ unlisted ∧ s.vars.contains name = false

instance (s : Snapshot) (name : String) : Decidable (s.Omits name) :=
  inferInstanceAs (Decidable (_ ∧ _))

/-- A snapshot as a scope, without the names that are omitted. -/
def listedScope (s : Snapshot) : Scope := fun name =>
  if s.Omits name then .error (.unknownVariable name) else s.scope name

/-! ### Names without points -/

variable {s : Snapshot} {name : String}

/-- A name is omitted if it is one of the four and no variable has it. -/
theorem omits_iff : s.Omits name ↔ name ∈ unlisted ∧ s.vars.get? name = none := by
  rw [Omits, KeyMap.contains, Option.isSome_eq_false_iff, Option.isNone_iff_eq_none]

/-- The flat namespace has what a name stands for, unless it omits
it. -/
theorem get?_merged_of_not_omits (h : ¬ s.Omits name) : s.merged.get? name = s.root? name := by
  rw [get?_merged, root?_eq]
  cases hvar : s.vars.get? name with
  | some v => rfl
  | none =>
    split
    · rfl
    · rename_i hlisted
      -- What is neither listed nor omitted is no field.
      cases hfield : s.field? name with
      | none => rfl
      | some v =>
        have hname := (s.isSome_field?_iff name).1 (Option.isSome_iff_exists.2 ⟨v, hfield⟩)
        exact absurd (omits_iff.2 ⟨hname.resolve_left hlisted, hvar⟩) h

/-- An omitted name is unknown in the flat namespace, and has a value in
the snapshot. -/
theorem named_of_omits (h : s.Omits name) :
    (Scope.ofVariables s.merged).named name = .error (.unknownVariable name) ∧
      ∃ v, s.scope.named name = .ok v := by
  have hnames : ∀ name ∈ unlisted, name ∉ fieldNames ∧ '.' ∉ name.toList := by
    decide
  obtain ⟨hunlisted, hvar⟩ := omits_iff.1 h
  obtain ⟨hlisted, hdot⟩ := hnames name hunlisted
  constructor
  · rw [Scope.named_ofVariables, get?_merged, if_neg hlisted, hvar]
    rfl
  · obtain ⟨v, hv⟩ := Option.isSome_iff_exists.1 ((s.isSome_field?_iff name).2 (.inr hunlisted))
    refine ⟨v, ?_⟩
    rw [s.named_scope hdot, root?_eq, hvar, hv]
    rfl

/-- The two namespaces agree without the omitted names. -/
theorem named_merged (hname : '.' ∉ name.toList) :
    (Scope.ofVariables s.merged).named name = s.listedScope.named name := by
  by_cases homits : s.Omits name
  · rw [(named_of_omits homits).1, Scope.named, listedScope, if_pos homits]
  · rw [Scope.named_ofVariables, get?_merged_of_not_omits homits, ← s.named_scope hname]
    rw [Scope.named, Scope.named, listedScope, if_neg homits]

/-! ### Expressions -/

/-- An expression that compiles has in the flat namespace what it has in
the snapshot without the omitted names. So where it asks for none of
these the two give it the same value or the same fault; and an omitted
name by itself is unknown in the one, and has a value in the other. -/
theorem eval_merged {source : String} {script : Script} {e : Expr} (s : Snapshot)
    (h : Script.compile source = .ok script) (he : script.Contains e) :
    e.eval (.ofVariables s.merged) = e.eval s.listedScope ∧
      ((∀ name, e.Mentions name → ¬ s.Omits name) →
        e.eval (.ofVariables s.merged) = e.eval s.scope) ∧
      ∀ name, e = .name name → s.Omits name →
        e.eval (.ofVariables s.merged) = .error (.unknownVariable name) ∧
          ∃ v, e.eval s.scope = .ok v := by
  have hplain := Script.undotted_of_compile h he
  have hlisted : e.eval (.ofVariables s.merged) = e.eval s.listedScope :=
    Expr.eval_congr fun name hname => named_merged (hplain name hname)
  refine ⟨hlisted, fun hnames => ?_, ?_⟩
  · rw [hlisted]
    refine Expr.eval_congr fun name hname => ?_
    rw [Scope.named, Scope.named, listedScope, if_neg (hnames name hname)]
  · rintro name rfl homits
    exact named_of_omits homits

/-- A snapshot at a come-out, with a variable that has the name of the
map of bets. -/
def atComeout : Snapshot :=
  { Snapshot.inHand .comeout 1 with vars := .ofList [("bets", .int 5)] }

/-- The variable and a field. -/
def betsAndRolls : Expr :=
  .binary .add (.name "bets") (.name "roll_index")

/-- The variable is no omitted name, so templates see it as rules do. -/
theorem eval_merged_betsAndRolls :
    Script.compile "bets + roll_index" = .ok { body := [.expression betsAndRolls] } ∧
      betsAndRolls.eval (.ofVariables atComeout.merged) = .ok (.int 6) ∧
      betsAndRolls.eval atComeout.scope = .ok (.int 6) := by
  have hcompile : Script.compile "bets + roll_index" =
      .ok { body := [.expression betsAndRolls] } := by
    with_unfolding_all rfl
  have hcontains : Script.Contains { body := [.expression betsAndRolls] } betsAndRolls :=
    ⟨_, List.mem_cons_self, _, List.mem_cons_self, .refl⟩
  have hscope : betsAndRolls.eval atComeout.scope = .ok (.int 6) := by
    rfl
  have hnames : ∀ name, betsAndRolls.Mentions name → ¬ atComeout.Omits name := by
    intro name hname
    rcases Expr.mentions_iff.1 hname with heq | ⟨part, hpart, hwithin⟩
    · cases heq
    · cases hpart with
      | left => rw [Expr.eq_of_mentions_name hwithin]; decide
      | right => rw [Expr.eq_of_mentions_name hwithin]; decide
  have hsame := (eval_merged atComeout hcompile hcontains).2.1 hnames
  exact ⟨hcompile, hsame.trans hscope, hscope⟩

/-- The alias of a listed name: the template does not know it. -/
theorem comeout_not_merged :
    Script.compile "comeout" = .ok { body := [.expression (.name "comeout")] } ∧
      (Expr.name "comeout").eval (.ofVariables atComeout.merged) =
        .error (.unknownVariable "comeout") ∧
      (Expr.name "comeout").eval atComeout.scope = .ok (.bool true) := by
  refine ⟨?_, ?_, ?_⟩ <;> with_unfolding_all rfl

end Snapshot

end CrapsStrategy
