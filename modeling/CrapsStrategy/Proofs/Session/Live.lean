import CrapsStrategy.Proofs.Script.Variable
import CrapsStrategy.Proofs.Session.Variables

/-!
# `CrapsStrategy.Proofs.Session.Live`: variables in the middle of a pass

A pass takes its snapshot once, before its first step. The expressions
of a step see the live variables laid over that snapshot, so a bare name
has what was last written to it. The name `vars` is a field of the
snapshot: it stands for the variables that the pass began with, whatever
was written since.

`Turn.Live` is every place in a pass where an expression is evaluated,
with the writes of the pass up to there; `Live.vars_eq` says that the
live variables are those at the start and these writes.
`Live.varsKey_eq_name_iff` compares a key of `vars` with the bare name:
the two agree exactly when the name still has what it had at the start.
-/

set_option autoImplicit false

namespace CrapsStrategy

open Controller

/-- The value of a key in a map of variables. -/
def Variables.keyed (vars : Variables) (name : String) : Except Fault Value :=
  match vars.get? name with
  | some v => .ok v
  | none => .error (.evaluation (.missingKey name))

variable {τ : Type} [BettingTable τ]

namespace Turn

/-- The steps of a pass, with the ids of their rules. -/
def steps (t : Turn τ) : List (String × Step) :=
  stepsOf (rulesAt t.before.engine.rules (t.before.engine.pass t.snapshot).2)

/-- The store after some steps at the start of the pass. -/
def storeAfter (t : Turn τ) (done : List (String × Step)) : Store :=
  (emission t.before.verbs t.snapshot t.before.store done).1

/-- What these steps have written. -/
def writtenBy (t : Turn τ) (done : List (String × Step)) : List (String × Value) :=
  writes t.before.verbs t.snapshot t.before.store done

/-- The live variables where an expression of a pass is evaluated, and
what the pass has written up to there. A verb sees them as the steps
before it have left them, a statement also has those of its script
before it. -/
inductive Live (t : Turn τ) : Variables → List (String × Value) → Prop
  | step (done later : List (String × Step)) (current : String × Step)
      (hsteps : t.steps = done ++ current :: later) :
      Live t (t.storeAfter done).vars (t.writtenBy done)
  | statement (done later : List (String × Step)) (ruleId source : String) (script : Script)
      (past rest : List Statement) (s : Statement) (run : Run)
      (hsteps : t.steps = done ++ (ruleId, .statements source script) :: later)
      (hbody : script.body = past ++ s :: rest)
      (hrun : runStatements t.snapshot.scope (.start (t.storeAfter done).vars) past = (run, none)) :
      Live t run.vars (t.writtenBy done ++ run.assigned)

variable {t : Turn τ} {vars : Variables} {written : List (String × Value)}

/-- The live variables are those at the start of the pass, and all
writes since. -/
theorem Live.vars_eq (h : t.Live vars written) :
    vars = t.before.store.vars.assignAll written := by
  cases h with
  | step done later current hsteps => exact vars_emission _ _ _ done
  | statement done later ruleId source script past rest s run hsteps hbody hrun =>
    obtain ⟨assigned, hwrites, _⟩ := writes_runStatements hrun
    have hassigned : run.assigned = assigned := hwrites.assigned
    have hvars : run.vars = (t.storeAfter done).vars.assignAll assigned := hwrites.vars
    have hstart : (t.storeAfter done).vars = t.before.store.vars.assignAll (t.writtenBy done) :=
      vars_emission _ _ _ done
    rw [hvars, hstart, hassigned, Variables.assignAll_append]

/-! ### A name and a key -/

/-- A user variable called `vars` would have to be written or be there
from the start. -/
theorem Live.get?_vars (h : t.Live vars written) (hvars : vars.contains "vars" = false) :
    vars.get? "vars" = none ∧ t.before.store.vars.get? "vars" = none := by
  have hlive : vars.get? "vars" = none := by simpa [KeyMap.contains] using hvars
  have hwritten := hlive
  rw [h.vars_eq, Variables.get?_assignAll, Option.or_eq_none_iff] at hwritten
  exact ⟨hlive, hwritten.2⟩

/-- The live value of a name is its last write, or else what it had at the
start. -/
theorem Live.get?_eq (h : t.Live vars written) (x : String) :
    vars.get? x = (Variables.lastWrite? written x).or (t.before.store.vars.get? x) := by
  rw [h.vars_eq, Variables.get?_assignAll]

/-- A key of `vars` has what the name had at the start of the pass. -/
theorem Live.eval_varsKey (h : t.Live vars written) (hvars : vars.contains "vars" = false)
    (x : String) (position : Position) :
    (Expr.varsKey x position).eval (.overlay vars t.snapshot.scope) =
      t.before.store.vars.keyed x := by
  obtain ⟨hlive, hstart⟩ := h.get?_vars hvars
  -- No variable hides the field, which has the variables of the snapshot.
  have hfield : t.snapshot.root? "vars" = some (.ofVariables t.before.store.vars) := by
    rw [Snapshot.root?_eq]
    show (t.before.store.vars.get? "vars").or _ = _
    rw [hstart]
    rfl
  have hbase : t.snapshot.scope "vars" = .ok (.ofVariables t.before.store.vars) := by
    show t.snapshot.lookup "vars" = _
    rw [t.snapshot.lookup_of_plain (by decide), hfield]
    rfl
  have hname : (Expr.name "vars").eval (.overlay vars t.snapshot.scope) =
      .ok (.ofVariables t.before.store.vars) := by
    rw [Expr.eval, Scope.named, Scope.overlay, hlive]
    simp only [hbase]
  rw [Expr.varsKey, Expr.eval, hname, Variables.keyed]
  show evaluated (subscriptOperation (.map t.before.store.vars.entries) (.text x)) = _
  rw [subscriptOperation, KeyMap.get?]
  cases t.before.store.vars.entries.lookup x <;> rfl

/-- A bare name has its live value, whatever lies below it. -/
theorem eval_name {x : String} {v : Value} (hx : vars.get? x = some v) (base : Scope) :
    (Expr.name x).eval (.overlay vars base) = .ok v := by
  rw [Expr.eval, Scope.named, Scope.overlay, hx]

/-- A live variable that no other hides has two readings in the middle of
a pass. Its bare name has the live value, and its key in `vars` the value
that it had when the pass began, if it was there. The two agree exactly
when the last write of the pass to it, if there is one, has left it with
that value. Written as texts they are read the same way. -/
theorem Live.varsKey_eq_name_iff (h : t.Live vars written) (hvars : vars.contains "vars" = false)
    {x : String} {v : Value} (hx : vars.get? x = some v) :
    let scope := Scope.overlay vars t.snapshot.scope
    let start := t.before.store.vars
    (∀ position, (Expr.name x).eval scope = .ok v ∧
      (Expr.varsKey x position).eval scope = start.keyed x ∧
      ((Expr.varsKey x position).eval scope = (Expr.name x).eval scope ↔
        ∀ w, Variables.lastWrite? written x = some w → start.get? x = some w)) ∧
    (Lexer.IsVariable x → Formula.value x scope = .ok v ∧
      Formula.value (varsKeyText x) scope = start.keyed x) := by
  intro scope start
  have hname : (Expr.name x).eval scope = .ok v := eval_name hx t.snapshot.scope
  have hkey := h.eval_varsKey hvars x
  have hlive := h.get?_eq x
  rw [hx] at hlive
  have hagree : start.keyed x = .ok v ↔
      ∀ w, Variables.lastWrite? written x = some w → start.get? x = some w := by
    have hstart : start.keyed x = .ok v ↔ start.get? x = some v := by
      unfold Variables.keyed
      cases start.get? x <;> simp
    rw [hstart]
    cases hlast : Variables.lastWrite? written x with
    | none =>
      -- Nothing was written, so the live value is the one at the start.
      rw [hlast, Option.none_or] at hlive
      simp [hlive, start]
    | some w =>
      rw [hlast, Option.some_or] at hlive
      cases hlive
      simp
  refine ⟨fun position => ⟨hname, hkey position, ?_⟩, fun hvariable => ⟨?_, ?_⟩⟩
  · rw [hkey position, hname]
    exact hagree
  · rw [Formula.value_of_compile (Script.compile_name hvariable)]
    exact hname
  · obtain ⟨position, hcompile⟩ := Script.compile_varsKeyText hvariable
    rw [Formula.value_of_compile hcompile]
    exact hkey position

/-! ### A raise in the middle of a pass -/

/-- A strategy that raises its units when a bet is settled and then notes
them. -/
def raiseAndNote : Strategy :=
  let setvar : StepObject :=
    { action := some "setvar", bet := none, amount := none, notes := none, mode := none,
      var := none, value := none }
  { table := { bubble := false, level := 10, oddsPolicy := none }
    vars := .ofList [("level", .int 3), ("units", .int 5)]
    modes := .ofList [("Main", .empty)]
    rules := [{
      name := none, id := none, event := some "bet_resolved", guard := none
      steps := [
        .object { setvar with var := some "units", value := some (.int 15) },
        .object { setvar with var := some "noted", amount := some (.text (varsKeyText "units")) }]
      thenStep := none, scope := .roll, cooldown := 0, once := false }] }

/-- The integer that a variable is set to. -/
def intSet? : String × Value → Option (String × Int64)
  | (name, .int i) => some (name, i)
  | _ => none

/-- An assignment that the view shows is the one of that integer. -/
theorem eq_of_intSet? {entry : String × Value} {name : String} {i : Int64}
    (h : intSet? entry = some (name, i)) : entry = (name, .int i) := by
  obtain ⟨key, v⟩ := entry
  cases v with
  | int _ =>
    cases h
    rfl
  | _ => cases h

/-- The rule comes to its second step with the raise written and nothing
else. -/
theorem live_raiseAndNote :
    ∃ (t : Turn PaperTable) (vars : Variables), Reachable raiseAndNote t.before ∧
      t.Live vars [("units", .int 15)] ∧ vars.contains "vars" = false ∧
      t.before.store.vars.get? "units" = some (.int 5) ∧
      t.before.store.vars.get? "level" = some (.int 3) := by
  let turn := fun c : Controller PaperTable =>
    ({ before := c, event := lineWon } : Turn PaperTable)
  let seen := fun c : Controller PaperTable =>
    ((turn c).steps.length, ((turn c).writtenBy ((turn c).steps.take 1)).map intSet?)
  have hseen : (Controller.start raiseAndNote withLine).toOption.map seen =
      some (2, [some ("units", 15)]) := by
    decide +kernel
  obtain ⟨c, hstart, hc⟩ := exists_ok_of_toOption hseen
  obtain ⟨hlength, hwritten⟩ := Prod.mk.inj hc
  -- The second step has the first one before it and none behind it.
  have hsecond : 1 < (turn c).steps.length := by
    rw [hlength]
    decide
  have hlive := Live.step (t := turn c) ((turn c).steps.take 1) ((turn c).steps.drop 2)
    ((turn c).steps[1]) (by rw [← List.drop_eq_getElem_cons hsecond, List.take_append_drop])
  obtain ⟨entry, hentry, hset⟩ := List.map_eq_singleton_iff.1 hwritten
  rw [hentry, eq_of_intSet? hset] at hlive
  have hreached : Reachable raiseAndNote c := .start _ c hstart
  obtain ⟨_, rules, _, rfl⟩ := start_eq_ok hstart
  refine ⟨_, _, hreached, hlive, ?_, rfl, rfl⟩
  rw [hlive.vars_eq]
  rfl

/-- There the key of `vars` has the units before the raise, and the bare
name those after it. -/
theorem varsKey_ne_name_raiseAndNote :
    ∃ (t : Turn PaperTable) (vars : Variables) (written : List (String × Value)),
      Reachable raiseAndNote t.before ∧ t.Live vars written ∧ vars.contains "vars" = false ∧
      vars.contains "units" = true ∧
      ∀ position, (Expr.varsKey "units" position).eval (.overlay vars t.snapshot.scope) ≠
        (Expr.name "units").eval (.overlay vars t.snapshot.scope) := by
  obtain ⟨t, vars, hreached, hlive, hvars, hunits, _⟩ := live_raiseAndNote
  have hraised : vars.get? "units" = some (.int 15) := by
    rw [hlive.get?_eq]
    rfl
  refine ⟨t, vars, _, hreached, hlive, hvars, ?_, fun position hsame => ?_⟩
  · rw [KeyMap.contains, hraised]
    rfl
  · rw [hlive.eval_varsKey hvars, eval_name hraised, Variables.keyed, hunits] at hsame
    cases hsame

/-- A variable that the pass has not written to has one value on both
ways, written as texts too. -/
theorem varsKey_eq_name_raiseAndNote :
    ∃ (t : Turn PaperTable) (vars : Variables) (written : List (String × Value)),
      t.Live vars written ∧ vars.contains "vars" = false ∧ vars.get? "level" = some (.int 3) ∧
      Lexer.IsVariable "level" ∧
      (∀ position, (Expr.varsKey "level" position).eval (.overlay vars t.snapshot.scope) =
        (Expr.name "level").eval (.overlay vars t.snapshot.scope)) ∧
      Formula.value "level" (.overlay vars t.snapshot.scope) = .ok (.int 3) ∧
      Formula.value "vars['level']" (.overlay vars t.snapshot.scope) = .ok (.int 3) := by
  obtain ⟨t, vars, _, hlive, hvars, _, hlevel⟩ := live_raiseAndNote
  have hsame : vars.get? "level" = some (.int 3) := by
    rw [hlive.get?_eq, hlevel]
    rfl
  have hvariable : Lexer.IsVariable "level" :=
    ⟨⟨by decide +kernel, List.all_eq_true.1 (by rfl), by decide +kernel⟩, by rfl⟩
  obtain ⟨htrees, htexts⟩ := hlive.varsKey_eq_name_iff hvars hsame
  obtain ⟨hname, hkey⟩ := htexts hvariable
  rw [Variables.keyed, hlevel] at hkey
  refine ⟨t, vars, _, hlive, hvars, hsame, hvariable, fun position => ?_, hname, hkey⟩
  refine (htrees position).2.2.2 fun w hw => ?_
  cases hw

end Turn

end CrapsStrategy
