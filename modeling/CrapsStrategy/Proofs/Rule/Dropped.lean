import CrapsStrategy.Proofs.Rule.Firing
import CrapsStrategy.Proofs.Rule.Run
import CrapsStrategy.Proofs.Script.Run

/-!
# `CrapsStrategy.Proofs.Rule.Dropped`: what a dropped step leaves

A step that faults asks for nothing, but it is not undone.
`store_of_run_error` has the store that it leaves behind. A verb faults
before it writes. A script has run up to a statement that faulted, and
the assignments before that one stay, though no envelope tells of them
(`halfway` is such a script).
-/

set_option autoImplicit false

namespace CrapsStrategy

namespace StepContext

variable {c : StepContext} {store after : Store} {step : Step} {fault : StepFault}

/-- How a script stops at a fault. The statements before the failing
one have run, and the variables have the assignments of these in order,
and no others. -/
def Stops (c : StepContext) (store : Store) (script : Script) (after : Store)
    (fault : StepFault) : Prop :=
  ∃ (done : List Statement) (failing : Statement) (later : List Statement) (run : Run)
      (failure : Fault),
    script.body = done ++ failing :: later ∧ fault = .expression failure ∧
    runStatements c.snapshot.scope (.start store.vars) done = (run, none) ∧
    failing.run c.snapshot.scope run = .error failure ∧
    after.vars = store.vars.assignAll run.assigned ∧
    run.assigned.map Prod.fst = done.filterMap Statement.target?

/-- A run of a script that fails stops it. The fault of the step is that
of the first statement that fails. -/
theorem stops_of_run_statements {source : String} {script : Script}
    (h : c.run store (.statements source script) = (after, .error fault)) :
    c.Stops store script after fault := by
  simp only [run] at h
  cases hran : script.run c.snapshot.scope store.vars with
  | mk run outcome =>
    rw [hran] at h
    cases outcome with
    | none => cases h
    | some failure =>
      cases h
      -- The run starts without assignments, so those it has are all that was written.
      obtain ⟨done, failing, later, hbody, hdone, hfailing⟩ := runStatements_eq_some_iff.1 hran
      obtain ⟨written, hwrites, htargets⟩ := writes_runStatements hdone
      have hassigned : run.assigned = written := hwrites.assigned
      exact ⟨done, failing, later, run, failure, hbody, rfl, hdone, hfailing,
        hassigned ▸ hwrites.vars, hassigned ▸ htargets⟩

/-- A verb that faults has written nothing. -/
theorem store_of_run_call {call : VerbCall}
    (h : c.run store (.call call) = (after, .error fault)) : after = store := by
  simp only [run] at h
  split at h
  · cases h
  · cases h
    rfl

/-- A step that faults leaves the mode alone, and a verb the variables
too. A script leaves what it has assigned before it stops. -/
theorem store_of_run_error (h : c.run store step = (after, .error fault)) :
    after.mode = store.mode ∧ after.modes = store.modes ∧
      match step with
      | .call _ => after.vars = store.vars
      | .statements _ script => c.Stops store script after fault := by
  have hmodes := c.mode_run store step
  rw [h] at hmodes
  refine ⟨hmodes.1, hmodes.2, ?_⟩
  cases step with
  | call call => exact congrArg Store.vars (store_of_run_call h)
  | statements source script => exact stops_of_run_statements h

/-! ### A script that stops half-way -/

/-- An assignment that works and one that does not. -/
def halfwaySource : String :=
  "units += 10; rate = units // 0"

/-- Two assignments, of which the second divides by zero. -/
def halfway : Script :=
  { body := [
      .assign (.name "units") (some .add) (.literal (.int 10)) ⟨1, 1⟩,
      .assign (.name "rate") none (.binary .floorDiv (.name "units") (.literal (.int 0))) ⟨1, 14⟩] }

/-- The text compiles to the two assignments. -/
theorem compile_halfway : Script.compile halfwaySource = .ok halfway := by
  with_unfolding_all rfl

/-- A rule step at a come-out. -/
def comeout : StepContext :=
  { verbs := .standard, ruleId := "rule:#1", snapshot := .inHand .comeout 1 }

/-- A store with ten units, in the main mode. -/
def tenUnits : Store :=
  .start (.ofList [("units", .int 10)]) (.ofList ["Main"])

/-- The step faults at its second statement. -/
theorem outcome_halfway :
    (comeout.run tenUnits (.statements halfwaySource halfway)).2 =
      .error (.expression (.evaluation .divisionByZero)) := by
  rfl

/-- The step fails, and yet the units are raised: the store is not what
it was. -/
theorem vars_ne_halfway :
    let ran := comeout.run tenUnits (.statements halfwaySource halfway)
    Script.compile halfwaySource = .ok halfway ∧
      ran.2 = .error (.expression (.evaluation .divisionByZero)) ∧
      tenUnits.get? "units" = some (.int 10) ∧ ran.1.get? "units" = some (.int 20) ∧
      ran.1.vars ≠ tenUnits.vars := by
  intro ran
  have hbefore : tenUnits.get? "units" = some (.int 10) := by
    rfl
  have hafter : ran.1.get? "units" = some (.int 20) := by
    rfl
  refine ⟨compile_halfway, outcome_halfway, hbefore, hafter, fun hsame => ?_⟩
  unfold Store.get? at hbefore hafter
  rw [hsame, hbefore] at hafter
  exact absurd (Value.int.inj (Option.some.inj hafter)) (by decide)

/-- What is left is the work of the first statement. -/
theorem store_halfway :
    let step := Step.statements halfwaySource halfway
    let ran := comeout.run tenUnits step
    let fault := StepFault.expression (.evaluation .divisionByZero)
    comeout.run tenUnits step = (ran.1, .error fault) ∧
      ran.1.mode = tenUnits.mode ∧ ran.1.modes = tenUnits.modes ∧
      comeout.Stops tenUnits halfway ran.1 fault := by
  intro step ran fault
  have hran : comeout.run tenUnits step = (ran.1, .error fault) :=
    Prod.ext rfl outcome_halfway
  exact ⟨hran, store_of_run_error hran⟩

end StepContext

end CrapsStrategy
