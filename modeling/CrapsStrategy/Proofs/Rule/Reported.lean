import CrapsStrategy.Proofs.KeyMap
import CrapsStrategy.Proofs.Rule.Dropped
import Mathlib.Data.List.Basic

/-!
# `CrapsStrategy.Proofs.Rule.Reported`: what a step writes and reports

A step leaves its writes in the variables, whether it succeeds or not
(`vars_run`). One that succeeds also reports them: its `setvar`
envelopes, read in order as assignments, make the variables after it
from those before it (`reports_of_run`).

In a script each assignment reads what the ones before it have left.
`Stores` is the meaning of a single one in a scope, and `Follows` ties
the writes of a whole script to its assignments one by one; no other
writes follow from the same script (`Follows.unique`).
-/

set_option autoImplicit false

namespace CrapsStrategy

/-! ### Writes in a row -/

namespace Variables

/-- The last value written to a name. -/
def lastWrite? (written : List (String × Value)) (name : String) : Option Value :=
  written.reverse.lookup name

/-- After some writes in a row a name has what was written to it last,
or what it had before. -/
theorem get?_assignAll (vars : Variables) (written : List (String × Value)) (name : String) :
    KeyMap.get? (vars.assignAll written) name =
      (lastWrite? written name).or (KeyMap.get? vars name) :=
  KeyMap.get?_foldl_insert vars written name

/-- Writes in two stretches are writes in a row. -/
theorem assignAll_append (vars : Variables) (first second : List (String × Value)) :
    vars.assignAll (first ++ second) = (vars.assignAll first).assignAll second :=
  List.foldl_append

/-- What is not assigned stays as it was. -/
theorem get?_assignAll_of_notMem {vars : Variables} {written : List (String × Value)}
    {name : String} (h : name ∉ written.map Prod.fst) :
    KeyMap.get? (vars.assignAll written) name = KeyMap.get? vars name := by
  have hnone : lastWrite? written name = none := by
    rw [lastWrite?, List.lookup_eq_none_iff]
    intro write hwrite
    have hmem : write.1 ∈ written.map Prod.fst := List.mem_map_of_mem (List.mem_reverse.1 hwrite)
    exact bne_iff_ne.2 fun heq => h (heq ▸ hmem)
  rw [get?_assignAll, hnone, Option.none_or]

end Variables

/-! ### One assignment -/

/-- What an assignment to a name stores: the value of its right side,
or an operation on the current value of the name and that value. -/
inductive Stores (scope : Scope) (name : String) (value : Expr) :
    Option BinaryOp → Value → Prop
  | plain (v : Value) (hvalue : value.eval scope = .ok v) : Stores scope name value none v
  | augmented (op : BinaryOp) (current right v : Value)
      (hcurrent : scope.named name = .ok current) (hvalue : value.eval scope = .ok right)
      (hresult : binaryOperation op current right = .ok v) : Stores scope name value (some op) v

variable {base : Scope} {before after : Run} {name : String} {op : Option BinaryOp}
  {value : Expr} {v : Value} {position : Position}

/-- The value that a run computes for an assignment is one that the
assignment stores. -/
theorem stores_of_assignedValue {scope : Scope}
    (h : assignedValue scope name op value = .ok v) : Stores scope name value op v := by
  obtain ⟨right, hvalue, h⟩ := bind_eq_ok.1 h
  cases op with
  | none =>
    cases h
    exact .plain _ hvalue
  | some op =>
    obtain ⟨current, hcurrent, h⟩ := bind_eq_ok.1 h
    cases hresult : binaryOperation op current right with
    | error fault =>
      rw [hresult] at h
      cases h
    | ok result =>
      rw [hresult] at h
      cases h
      exact .augmented op current right _ hcurrent hvalue hresult

/-- An assignment stores one value only, so the writes of a script are
determined. -/
theorem Stores.unique {scope : Scope} {v' : Value} (h : Stores scope name value op v)
    (h' : Stores scope name value op v') : v = v' := by
  cases h with
  | plain v hvalue =>
    cases h' with
    | plain v' hvalue' => exact Except.ok.inj (hvalue.symm.trans hvalue')
  | augmented op current right v hcurrent hvalue hresult =>
    cases h' with
    | augmented _ current' right' v' hcurrent' hvalue' hresult' =>
      cases hcurrent.symm.trans hcurrent'
      cases hvalue.symm.trans hvalue'
      exact Except.ok.inj (hresult.symm.trans hresult')

/-- An assignment that succeeds has written what it stores. -/
theorem Statement.stores_of_run
    (h : (assign (.name name) op value position).run base before = .ok after) :
    ∃ v, after = before.assign name v ∧ Stores (.overlay before.vars base) name value op v := by
  obtain ⟨v, hvalue, h⟩ := bind_eq_ok.1 h
  cases h
  exact ⟨v, rfl, stores_of_assignedValue hvalue⟩

/-! ### All assignments of a script -/

/-- Statements that succeed do so piece by piece. -/
theorem runStatements_append_ok {done later : List Statement}
    (h : runStatements base before (done ++ later) = (after, none)) :
    ∃ mid, runStatements base before done = (mid, none) ∧
      runStatements base mid later = (after, none) := by
  induction done generalizing before with
  | nil => exact ⟨before, rfl, h⟩
  | cons s done ih =>
    rw [List.cons_append] at h
    cases hs : s.run base before with
    | error fault =>
      rw [runStatements_cons_error hs] at h
      cases h
    | ok mid =>
      rw [runStatements_cons_ok hs] at h ⊢
      exact ih h

/-- The writes of statements, from some variables on. They are to the
targets, in order, and each value is what its assignment stores when
all writes before it are there. -/
structure Follows (base : Scope) (vars : Variables) (body : List Statement)
    (written : List (String × Value)) : Prop where
  targets : written.map Prod.fst = body.filterMap Statement.target?
  values : ∀ {done later : List Statement} {name : String} {op : Option BinaryOp}
    {value : Expr} {position : Position},
    body = done ++ .assign (.name name) op value position :: later →
      ∃ earlier v rest, written = earlier ++ (name, v) :: rest ∧
        earlier.map Prod.fst = done.filterMap Statement.target? ∧
        Stores (.overlay (vars.assignAll earlier) base) name value op v

/-- What statements have written follows from them. -/
theorem follows_runStatements {vars : Variables} {body : List Statement}
    (h : runStatements base (.start vars) body = (after, none)) :
    Follows base vars body after.assigned := by
  obtain ⟨written, hwrites, htargets⟩ := writes_runStatements h
  have hassigned : after.assigned = written := hwrites.assigned
  refine ⟨hassigned ▸ htargets, ?_⟩
  intro done later name op value position hbody
  subst hbody
  -- The run passes through the statements before, the assignment, and those after.
  obtain ⟨mid, hdone, hrest⟩ := runStatements_append_ok h
  obtain ⟨earlier, hearlier, hnames⟩ := writes_runStatements hdone
  cases hs : (Statement.assign (.name name) op value position).run base mid with
  | error fault =>
    rw [runStatements_cons_error hs] at hrest
    cases hrest
  | ok next =>
    rw [runStatements_cons_ok hs] at hrest
    obtain ⟨v, rfl, hstores⟩ := Statement.stores_of_run hs
    obtain ⟨rest, hlater, _⟩ := writes_runStatements hrest
    have hall := (hearlier.trans (Run.writes_assign mid name v)).trans hlater
    have hsplit : after.assigned = earlier ++ [(name, v)] ++ rest := hall.assigned
    refine ⟨earlier, v, rest, ?_, hnames, ?_⟩
    · rw [hsplit, List.append_assoc, List.singleton_append]
    · have hvars : mid.vars = vars.assignAll earlier := hearlier.vars
      rw [← hvars]
      exact hstores

/-- A statement with a target is an assignment to that name. -/
theorem Statement.eq_assign_of_target? {s : Statement} (h : s.target? = some name) :
    ∃ op value position, s = .assign (.name name) op value position := by
  unfold target? at h
  split at h
  · cases h
    exact ⟨_, _, _, rfl⟩
  · cases h

/-- A target among others is that of an assignment, and the targets
before it are those of the statements before. -/
theorem exists_assign_of_targets {body : List Statement} {earlier later : List String}
    (h : body.filterMap Statement.target? = earlier ++ name :: later) :
    ∃ done op value position rest, body = done ++ .assign (.name name) op value position :: rest ∧
      done.filterMap Statement.target? = earlier := by
  obtain ⟨done, tail, hbody, hdone, htail⟩ := List.filterMap_eq_append_iff.1 h
  obtain ⟨idle, s, rest, htail, hidle, hs, _⟩ := List.filterMap_eq_cons_iff.1 htail
  obtain ⟨op, value, position, rfl⟩ := Statement.eq_assign_of_target? hs
  refine ⟨done ++ idle, op, value, position, rest, ?_, ?_⟩
  · rw [hbody, htail, List.append_assoc]
  · rw [List.filterMap_append, hdone, List.filterMap_eq_nil_iff.2 hidle, List.append_nil]

/-- No other writes follow from the same statements and variables. -/
theorem Follows.unique {vars : Variables} {body : List Statement}
    {written written' : List (String × Value)} (h : Follows base vars body written)
    (h' : Follows base vars body written') : written = written' := by
  -- Writes that are the same so far are the same for one more.
  have hstep : ∀ earlier rest rest' : List (String × Value), written = earlier ++ rest →
      written' = earlier ++ rest' → rest = rest' := by
    intro earlier rest rest' hw hw'
    induction rest generalizing earlier rest' with
    | nil =>
      have hnames := h.targets.trans h'.targets.symm
      rw [hw, hw'] at hnames
      simpa using hnames
    | cons write rest ih =>
      obtain ⟨name, v⟩ := write
      have htargets : body.filterMap Statement.target? =
          earlier.map Prod.fst ++ name :: rest.map Prod.fst := by
        rw [← h.targets, hw, List.map_append, List.map_cons]
      obtain ⟨done, op, value, position, later, hbody, hdone⟩ := exists_assign_of_targets htargets
      have hlength : ∀ {first : List (String × Value)},
          first.map Prod.fst = done.filterMap Statement.target? →
            earlier.length = first.length := by
        intro first hfirst
        rw [← List.length_map Prod.fst, ← hdone, ← hfirst, List.length_map]
      obtain ⟨first, u, tail, hsplit, hfirst, hstores⟩ := h.values hbody
      obtain ⟨first', u', tail', hsplit', hfirst', hstores'⟩ := h'.values hbody
      obtain ⟨rfl, hrest⟩ := List.append_inj (hw.symm.trans hsplit) (hlength hfirst)
      obtain ⟨rfl, rfl⟩ := List.append_inj (hw'.symm.trans hsplit') (hlength hfirst')
      cases hrest
      cases hstores.unique hstores'
      have htail : rest = tail' :=
        ih (earlier ++ [(name, v)]) tail' (by rw [hw]; simp) (by rw [hw']; simp)
      rw [htail]
  exact hstep [] written written' rfl rfl

/-! ### What steps write -/

/-- The variable that an envelope reports as set. -/
def Envelope.write? (e : Envelope) : Option (String × Value) :=
  match e.var, e.value with
  | some var, some v => some (var, v)
  | _, _ => none

namespace StepContext

/-- The writes of a step: the assignments of a script, up to a fault if
there is one, and the variable that a verb sets. -/
def written (c : StepContext) (store : Store) : Step → List (String × Value)
  | .statements _ script => (script.run c.snapshot.scope store.vars).1.assigned
  | .call call =>
    match c.runCall store call with
    | .ok (_, e) => e.write?.toList
    | .error _ => []

/-- Notes and the working flag change nothing about what an envelope
reports to have been written. -/
@[simp]
theorem write?_annotated (call : VerbCall) (e : Envelope) :
    (annotated call e).write? = e.write? := by
  unfold annotated
  split <;> rfl

/-- A verb leaves what its envelope reports. -/
theorem Acts.vars_eq {c : StepContext} {store after : Store} {call : VerbCall}
    {action : ActionKind} {e : Envelope} (h : Acts c store call action after e) :
    after.vars = store.vars.assignAll e.write?.toList := by
  cases h with
  | wager w bet x hfinite hpositive =>
    rw [write?_annotated]
    rfl
  | clear bet =>
    rw [write?_annotated]
    rfl
  | switchMode mode hmode => rfl
  | setvar var v => rfl

/-- A step leaves its writes in the variables, whether it faults or
not. -/
theorem vars_run (c : StepContext) (store : Store) (step : Step) :
    (c.run store step).1.vars = store.vars.assignAll (c.written store step) := by
  cases step with
  | statements source script =>
    have hvars := script.vars_run c.snapshot.scope store.vars
    simp only [run, written]
    split <;> exact hvars
  | call call =>
    cases hcall : c.runCall store call with
    | error fault =>
      simp only [run, written, hcall]
      rfl
    | ok result =>
      obtain ⟨after, e⟩ := result
      -- A verb that succeeds is one of four, and each says what it sets.
      have hran : Ran c store (.call call) after [e] := ran_run (by simp only [run, hcall])
      simp only [run, written, hcall]
      cases hran with
      | call _ action _ _ hverb htimely hacts => exact hacts.vars_eq

/-! ### What steps report -/

variable {c : StepContext} {store after : Store} {step : Step} {es : List Envelope}

/-- The envelope of a write. -/
def report (c : StepContext) (write : String × Value) : Envelope :=
  .setvar .rule c.ruleId write.1 write.2

/-- A report tells the name and the value that it is about. -/
theorem report_injective (c : StepContext) : Function.Injective c.report := by
  intro write write' h
  have hvar : some write.1 = some write'.1 := congrArg Envelope.var h
  have hvalue : some write.2 = some write'.2 := congrArg Envelope.value h
  exact Prod.ext (Option.some.inj hvar) (Option.some.inj hvalue)

/-- The `setvar` envelopes of a step are those of some writes, and the
step has led from one store to another by these writes alone. -/
structure Reports (c : StepContext) (store after : Store) (es : List Envelope)
    (written : List (String × Value)) : Prop where
  envelopes : es.filter (fun e => e.action == .setvar) = written.map c.report
  vars : after.vars = store.vars.assignAll written
  others : ∀ name, name ∉ written.map Prod.fst → after.vars.get? name = store.vars.get? name
  mode : after.mode = store.mode
  modes : after.modes = store.modes

/-- A verb that succeeds sets a variable only if it is `setvar`. -/
theorem Acts.envelopes_eq {call : VerbCall} {action : ActionKind} {e : Envelope}
    (h : Acts c store call action after e) :
    [e].filter (fun e => e.action == .setvar) = e.write?.toList.map c.report := by
  rw [List.filter_singleton, h.action_eq]
  cases h with
  | wager w bet x hfinite hpositive =>
    rw [write?_annotated]
    cases w <;> rfl
  | clear bet =>
    rw [write?_annotated]
    rfl
  | switchMode mode hmode => rfl
  | setvar var v => rfl

/-- Every report of a write is a `setvar` envelope. -/
theorem filter_report (written : List (String × Value)) :
    (written.map c.report).filter (fun e => e.action == .setvar) = written.map c.report := by
  rw [List.filter_eq_self]
  intro e he
  obtain ⟨write, _, rfl⟩ := List.mem_map.1 he
  rfl

/-- The `setvar` envelopes of a step are those of its writes. -/
theorem envelopes_of_run (h : c.run store step = (after, .ok es)) :
    es.filter (fun e => e.action == .setvar) = (c.written store step).map c.report := by
  cases step with
  | statements source script =>
    cases ran_run h with
    | statements _ _ hran => exact filter_report _
  | call call =>
    have hran := ran_run h
    simp only [run] at h
    cases hcall : c.runCall store call with
    | error fault =>
      rw [hcall] at h
      cases h
    | ok result =>
      rw [hcall] at h
      cases h
      simp only [written, hcall]
      cases hran with
      | call _ action _ _ hverb htimely hacts => exact hacts.envelopes_eq

/-- A step that succeeds reports all that it writes, in order. A script
reports nothing else, and its writes follow from its statements. -/
theorem reports_of_run (h : c.run store step = (after, .ok es)) :
    ∃ written, c.Reports store after es written ∧
      ∀ source script, step = .statements source script →
        es = written.map c.report ∧
          Follows c.snapshot.scope store.vars script.body written := by
  have hmodes := c.mode_run store step
  have hvars := c.vars_run store step
  rw [h] at hmodes hvars
  refine ⟨c.written store step, ⟨envelopes_of_run h, hvars, ?_, hmodes.1, hmodes.2⟩, ?_⟩
  · intro name hname
    rw [hvars, Variables.get?_assignAll_of_notMem hname]
  · rintro source script rfl
    cases ran_run h with
    | statements _ _ hran => exact ⟨rfl, follows_runStatements (Prod.ext rfl hran)⟩

/-! ### A script that sets a variable twice -/

/-- Three assignments, two of them to one name. -/
def raisingSource : String :=
  "units += 10; rate = units * 2; units = rate - 5"

/-- Each statement reads what the ones before it have written. -/
def raising : Script :=
  { body := [
      .assign (.name "units") (some .add) (.literal (.int 10)) ⟨1, 1⟩,
      .assign (.name "rate") none (.binary .mul (.name "units") (.literal (.int 2))) ⟨1, 14⟩,
      .assign (.name "units") none (.binary .sub (.name "rate") (.literal (.int 5))) ⟨1, 32⟩] }

/-- What it writes with ten units. -/
def raised : List (String × Value) :=
  [("units", .int 20), ("rate", .int 40), ("units", .int 35)]

/-- The text compiles to the three assignments. -/
theorem compile_raising : Script.compile raisingSource = .ok raising := by
  with_unfolding_all rfl

/-- The step succeeds, and has an envelope for each of its writes. -/
theorem run_raising :
    (comeout.run tenUnits (.statements raisingSource raising)).2 =
      .ok (raised.map comeout.report) := by
  rfl

/-- The step reports all three writes, and they follow from the script. -/
theorem reports_raising :
    let ran := comeout.run tenUnits (.statements raisingSource raising)
    Script.compile raisingSource = .ok raising ∧
      comeout.run tenUnits (.statements raisingSource raising) =
        (ran.1, .ok (raised.map comeout.report)) ∧
      comeout.Reports tenUnits ran.1 (raised.map comeout.report) raised ∧
      Follows comeout.snapshot.scope tenUnits.vars raising.body raised := by
  intro ran
  have hran : comeout.run tenUnits (.statements raisingSource raising) =
      (ran.1, .ok (raised.map comeout.report)) :=
    Prod.ext rfl run_raising
  obtain ⟨written, hreports, hscript⟩ := reports_of_run hran
  obtain ⟨henvelopes, hfollows⟩ := hscript _ _ rfl
  -- An envelope tells the write that it reports.
  have hwritten : raised = written := List.map_injective_iff.2 (report_injective comeout) henvelopes
  subst hwritten
  exact ⟨compile_raising, hran, hreports, hfollows⟩

end StepContext

end CrapsStrategy
