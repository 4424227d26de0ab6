import CrapsStrategy.Proofs.Except
import CrapsStrategy.Script.Eval

/-!
# `CrapsStrategy.Proofs.Script.Run`: what a script writes

Statements write into the live variables as they go, and a script that
faults takes nothing back. `Run.Writes` compares two runs by what has
been assigned from the one to the other. One statement writes to its
target at most (`Statement.writes_run`), and so statements that all
succeed write to their targets, in order (`writes_runStatements`).

A fault cuts a script in three: the statements that succeeded, the one
that did not, and those that never ran (`runStatements_eq_some_iff`).
-/

set_option autoImplicit false

namespace CrapsStrategy

/-- Variables after assignments, in order. -/
def Variables.assignAll (vars : Variables) (written : List (String × Value)) : Variables :=
  written.foldl (fun vars (name, v) => vars.insert name v) vars

/-- The variable that a statement assigns. -/
def Statement.target? : Statement → Option String
  | assign (.name name) _ _ _ => some name
  | _ => none

namespace Run

/-- From one run to another `written` has been assigned, and nothing
else. -/
structure Writes (before after : Run) (written : List (String × Value)) : Prop where
  vars : after.vars = before.vars.assignAll written
  assigned : after.assigned = before.assigned ++ written

/-- A run that goes nowhere has written nothing. -/
theorem Writes.refl (run : Run) : Writes run run [] :=
  ⟨rfl, (List.append_nil _).symm⟩

/-- What is written later comes behind what has been written. -/
theorem Writes.trans {first second third : Run} {written later : List (String × Value)}
    (h : Writes first second written) (hlater : Writes second third later) :
    Writes first third (written ++ later) := by
  constructor
  · rw [hlater.vars, h.vars]
    exact List.foldl_append.symm
  · rw [hlater.assigned, h.assigned, List.append_assoc]

/-- One assignment is written both in the variables and in the record. -/
theorem writes_assign (run : Run) (name : String) (v : Value) :
    Writes run (run.assign name v) [(name, v)] :=
  ⟨rfl, rfl⟩

end Run

open Run (Writes)

variable {base : Scope} {before after : Run} {body : List Statement}

/-- A statement that succeeds has written to its target, if it has
one. -/
theorem Statement.writes_run {s : Statement} (h : s.run base before = .ok after) :
    ∃ written, Writes before after written ∧ written.map Prod.fst = s.target?.toList := by
  cases s with
  | expression e =>
    obtain ⟨v, _, h⟩ := bind_eq_ok.1 h
    cases h
    exact ⟨[], ⟨rfl, (List.append_nil _).symm⟩, rfl⟩
  | assign target op value position =>
    cases target with
    | name name =>
      obtain ⟨v, _, h⟩ := bind_eq_ok.1 h
      cases h
      exact ⟨[(name, v)], Run.writes_assign before name v, rfl⟩
    | _ => cases h
  | forbidden word position => cases h

/-- A statement that succeeds hands its run on to the rest. -/
theorem runStatements_cons_ok {s : Statement} {mid : Run} (h : s.run base before = .ok mid) :
    runStatements base before (s :: body) = runStatements base mid body := by
  rw [runStatements, h]

/-- One that does not leaves the run as it was, and the rest never runs. -/
theorem runStatements_cons_error {s : Statement} {fault : Fault}
    (h : s.run base before = .error fault) :
    runStatements base before (s :: body) = (before, some fault) := by
  rw [runStatements, h]

/-- Statements that all succeed have written to their targets, in
order. -/
theorem writes_runStatements (h : runStatements base before body = (after, none)) :
    ∃ written, Writes before after written ∧
      written.map Prod.fst = body.filterMap Statement.target? := by
  induction body generalizing before with
  | nil =>
    cases h
    exact ⟨[], .refl _, rfl⟩
  | cons s rest ih =>
    cases hs : s.run base before with
    | error fault =>
      rw [runStatements_cons_error hs] at h
      cases h
    | ok mid =>
      rw [runStatements_cons_ok hs] at h
      -- What the first statement writes comes before what the rest writes.
      obtain ⟨written, hwritten, htargets⟩ := Statement.writes_run hs
      obtain ⟨later, hlater, hrest⟩ := ih h
      refine ⟨written ++ later, hwritten.trans hlater, ?_⟩
      rw [List.map_append, htargets, hrest]
      cases htarget : s.target? with
      | none => rw [List.filterMap_cons_none htarget]; rfl
      | some name => rw [List.filterMap_cons_some htarget]; rfl

/-- Whether they fault or not, statements have written what they
assigned, and nothing else. -/
theorem exists_writes_runStatements (base : Scope) (before : Run) (body : List Statement) :
    ∃ written, Writes before (runStatements base before body).1 written := by
  induction body generalizing before with
  | nil => exact ⟨[], .refl _⟩
  | cons s rest ih =>
    cases hs : s.run base before with
    | error fault =>
      rw [runStatements_cons_error hs]
      exact ⟨[], .refl _⟩
    | ok mid =>
      rw [runStatements_cons_ok hs]
      obtain ⟨written, hwritten, _⟩ := Statement.writes_run hs
      obtain ⟨later, hlater⟩ := ih mid
      exact ⟨written ++ later, hwritten.trans hlater⟩

/-- The variables that a script leaves are told by its assignments. -/
theorem Script.vars_run (script : Script) (base : Scope) (vars : Variables) :
    (script.run base vars).1.vars = vars.assignAll (script.run base vars).1.assigned := by
  obtain ⟨written, hwrites⟩ := exists_writes_runStatements base (.start vars) script.body
  have hassigned : (script.run base vars).1.assigned = written := hwrites.assigned
  rw [hassigned]
  exact hwrites.vars

/-- Statements fault where one of them does after all before it have
succeeded. What these have left is what the fault leaves. -/
theorem runStatements_eq_some_iff {fault : Fault} :
    runStatements base before body = (after, some fault) ↔
      ∃ done failing later, body = done ++ failing :: later ∧
        runStatements base before done = (after, none) ∧ failing.run base after = .error fault := by
  induction body generalizing before with
  | nil =>
    constructor
    · intro h
      cases h
    · rintro ⟨done, failing, later, hbody, _⟩
      simp at hbody
  | cons s rest ih =>
    cases hs : s.run base before with
    | error failure =>
      rw [runStatements_cons_error hs]
      constructor
      · intro h
        cases h
        exact ⟨[], s, rest, rfl, rfl, hs⟩
      · rintro ⟨done, failing, later, hbody, hdone, hfailing⟩
        cases done with
        | nil =>
          cases hbody
          cases hdone
          rw [hs] at hfailing
          cases hfailing
          rfl
        | cons first done =>
          -- The first statement would have to succeed.
          cases hbody
          rw [runStatements_cons_error hs] at hdone
          cases hdone
    | ok mid =>
      rw [runStatements_cons_ok hs, ih]
      constructor
      · rintro ⟨done, failing, later, rfl, hdone, hfailing⟩
        exact ⟨s :: done, failing, later, rfl, (runStatements_cons_ok hs).trans hdone, hfailing⟩
      · rintro ⟨done, failing, later, hbody, hdone, hfailing⟩
        cases done with
        | nil =>
          -- The first statement would have to fault.
          cases hbody
          cases hdone
          rw [hs] at hfailing
          cases hfailing
        | cons first done =>
          cases hbody
          rw [runStatements_cons_ok hs] at hdone
          exact ⟨done, failing, later, rfl, hdone, hfailing⟩

end CrapsStrategy
