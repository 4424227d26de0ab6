import CrapsStrategy.Proofs.Rule.Firing
import CrapsStrategy.Proofs.Rule.Run
import CrapsStrategy.Session.Controller

/-!
# `CrapsStrategy.Proofs.Session.Pass`: what a pass is made of

While the steps of a pass run, `Controller.Progress` sorts their
envelopes into two lists, switches the mode as it goes and remembers
whether it changed. `emission` does none of this: it runs the steps
one after the other and lists what they ask for. `foldl_runStep` says
that the two lists of the progress are the two halves of that one
list, and that both leave the same store behind.

`Progress.Tracks` is the invariant of the mode. Steps write variables
between the switches, so the store on the way is never that of the
switches alone; but modes and mode are, and no more is needed to say
whether a switch changes something. `actions_handle`, `store_handle`
and `mode_emitted` put the pass together.
-/

set_option autoImplicit false

namespace CrapsStrategy

/-- Whether an envelope asks for another mode. -/
def Envelope.isSwitch (e : Envelope) : Bool :=
  e.action = .switchMode

namespace Store

/-! ### Switches in a row -/

/-- A store after some switches of mode, in order. -/
def switchAll (s : Store) (switches : List Envelope) : Store :=
  switches.foldl (fun s e => s.switchMode e.notes) s

/-- Whether some switches, followed in order, change the active mode
at least once. -/
def switchesMode (s : Store) : List Envelope → Bool
  | [] => false
  | e :: rest => s.changesMode e.notes || (s.switchMode e.notes).switchesMode rest

/-- A store after the switches among some envelopes. -/
def follow (s : Store) (es : List Envelope) : Store :=
  s.switchAll (es.filter Envelope.isSwitch)

/-- A switch leaves the modes of the strategy. -/
@[simp]
theorem modes_switchMode (s : Store) (mode : String) : (s.switchMode mode).modes = s.modes := by
  unfold switchMode
  split <;> rfl

/-- A switch to a mode of the strategy makes it the active one. -/
theorem mode_switchMode_of_hasMode {s : Store} {mode : String} (h : s.hasMode mode = true) :
    (s.switchMode mode).mode = mode := by
  simp [switchMode, h]

/-- Stores with the same modes and the same mode have the same mode
after a switch. -/
theorem mode_switchMode_congr {s t : Store} (hmodes : s.modes = t.modes) (hmode : s.mode = t.mode)
    (mode : String) : (s.switchMode mode).mode = (t.switchMode mode).mode := by
  unfold switchMode hasMode
  rw [hmodes]
  split
  · rfl
  · exact hmode

/-- Whether a switch changes something can be told from modes and mode. -/
theorem changesMode_congr {s t : Store} (hmodes : s.modes = t.modes) (hmode : s.mode = t.mode)
    (mode : String) : s.changesMode mode = t.changesMode mode := by
  unfold changesMode
  rw [mode_switchMode_congr hmodes hmode, hmode]

/-- The last switch is made from where the others have led. -/
theorem switchAll_snoc (s : Store) (switches : List Envelope) (e : Envelope) :
    s.switchAll (switches ++ [e]) = (s.switchAll switches).switchMode e.notes := by
  simp [switchAll]

/-- No number of switches touches the modes. -/
@[simp]
theorem modes_switchAll (s : Store) (switches : List Envelope) :
    (s.switchAll switches).modes = s.modes := by
  induction switches using List.reverseRecOn with
  | nil => rfl
  | append_singleton switches e ih => rw [switchAll_snoc, modes_switchMode, ih]

/-- After switches to modes that the store has, the last one names
the active mode. -/
theorem mode_switchAll {s : Store} {switches : List Envelope}
    (hknown : ∀ e ∈ switches, s.hasMode e.notes = true) :
    (s.switchAll switches).mode = (switches.getLast?.map Envelope.notes).getD s.mode := by
  induction switches using List.reverseRecOn with
  | nil => rfl
  | append_singleton switches e _ =>
    have hmode : (s.switchAll switches).hasMode e.notes = true := by
      rw [hasMode, modes_switchAll]
      exact hknown e (by simp)
    rw [switchAll_snoc, mode_switchMode_of_hasMode hmode]
    simp

/-- Switches with one more at the end change the mode if those before
do, or if the last one does. -/
theorem switchesMode_snoc (s : Store) (switches : List Envelope) (e : Envelope) :
    s.switchesMode (switches ++ [e]) =
      (s.switchesMode switches || (s.switchAll switches).changesMode e.notes) := by
  induction switches generalizing s with
  | nil => simp [switchesMode, switchAll]
  | cons first rest ih =>
    rw [List.cons_append, switchesMode, ih, switchesMode, Bool.or_assoc]
    rfl

/-- Only a switch moves the store, and it does so before the rest. -/
theorem follow_cons (s : Store) (e : Envelope) (es : List Envelope) :
    s.follow (e :: es) = (if e.isSwitch then s.switchMode e.notes else s).follow es := by
  unfold follow switchAll
  by_cases h : e.isSwitch = true <;> simp [h]

end Store

namespace Controller

/-! ### The steps of a pass -/

/-- The steps of some rules with the ids of their rules, in order of
the rules and then of the steps. -/
def stepsOf (rules : List Rule) : List (String × Step) :=
  rules.flatMap fun rule => rule.steps.map fun step => (rule.id, step)

/-- What a step asks for, nothing if it faults. -/
def asked (c : StepContext) (store : Store) (step : Step) : List Envelope :=
  (c.run store step).2.toOption.getD []

/-- What some steps ask for when they run in order, and the store
after them. A switch takes effect before the next step. -/
def emission (verbs : Verbs) (snapshot : Snapshot) (store : Store) :
    List (String × Step) → Store × List Envelope
  | [] => (store, [])
  | (ruleId, step) :: rest =>
    let c : StepContext := { verbs, ruleId, snapshot }
    let es := asked c store step
    let (final, later) := emission verbs snapshot ((c.run store step).1.follow es) rest
    (final, es ++ later)

namespace Progress

variable (verbs : Verbs) (snapshot : Snapshot)

/-- The envelopes of a step go to the two lists, and the switches
among them to the store. -/
theorem foldl_take (p : Progress) (es : List Envelope) :
    (es.foldl take p).store = p.store.follow es ∧
      (es.foldl take p).switches = p.switches ++ es.filter Envelope.isSwitch ∧
      (es.foldl take p).others = p.others ++ es.filter (fun e => !e.isSwitch) ∧
      (es.foldl take p).engine = p.engine := by
  induction es generalizing p with
  | nil => simp [Store.follow, Store.switchAll]
  | cons e es ih =>
    rw [List.foldl_cons, Store.follow_cons]
    obtain ⟨hstore, hswitches, hothers, hengine⟩ := ih (p.take e)
    rw [hstore, hswitches, hothers, hengine]
    by_cases h : e.action = .switchMode <;> simp [take, Envelope.isSwitch, h]

/-- One step adds what it asks for. Of the engine only the trace can
change. -/
theorem runStep_eq (p : Progress) (ruleId : String) (step : Step) :
    let c : StepContext := { verbs, ruleId, snapshot }
    let q := runStep verbs snapshot ruleId p step
    q.store = (c.run p.store step).1.follow (asked c p.store step) ∧
      q.switches = p.switches ++ (asked c p.store step).filter Envelope.isSwitch ∧
      q.others = p.others ++ (asked c p.store step).filter (fun e => !e.isSwitch) ∧
      q.engine.armed = p.engine.armed := by
  intro c q
  -- A step that faults asks for nothing, but what it assigned before stays.
  cases hrun : (c.run p.store step).2 with
  | ok es =>
    have hasked : asked c p.store step = es := by
      rw [asked, hrun]
      rfl
    have hq : q = es.foldl take { p with store := (c.run p.store step).1 } := by
      simp only [q, runStep]
      rw [hrun]
    obtain ⟨hstore, hswitches, hothers, hengine⟩ :=
      foldl_take { p with store := (c.run p.store step).1 } es
    rw [hq, hasked]
    exact ⟨hstore, hswitches, hothers, congrArg RuleEngine.armed hengine⟩
  | error fault =>
    have hasked : asked c p.store step = [] := by
      rw [asked, hrun]
      rfl
    have hq : q = { p with
        store := (c.run p.store step).1
        engine := p.engine.recordDropped ruleId snapshot fault.message } := by
      simp only [q, runStep]
      rw [hrun]
    rw [hq, hasked]
    simp [Store.follow, Store.switchAll, RuleEngine.recordDropped]

/-- What the steps of a pass have led to: the two lists are the two
halves of the emission. -/
theorem foldl_runStep (p : Progress) (steps : List (String × Step)) :
    let q := steps.foldl (fun p step => runStep verbs snapshot step.1 p step.2) p
    let (final, emitted) := emission verbs snapshot p.store steps
    q.store = final ∧ q.switches = p.switches ++ emitted.filter Envelope.isSwitch ∧
      q.others = p.others ++ emitted.filter (fun e => !e.isSwitch) ∧
      q.engine.armed = p.engine.armed := by
  induction steps generalizing p with
  | nil => simp [emission]
  | cons step rest ih =>
    obtain ⟨ruleId, step⟩ := step
    obtain ⟨hstore, hswitches, hothers, harmed⟩ :=
      runStep_eq verbs snapshot p ruleId step
    -- The rest runs from the store that this step leaves.
    have hrest := ih (runStep verbs snapshot ruleId p step)
    simp only [hstore, hswitches, hothers, harmed, List.append_assoc] at hrest
    simp only [List.foldl_cons, emission, List.filter_append]
    exact hrest

/-- The rules of a pass run their steps in one row. -/
theorem foldl_runRule (p : Progress) (rules : List Rule) :
    rules.foldl (runRule verbs snapshot) p =
      (stepsOf rules).foldl (fun p step => runStep verbs snapshot step.1 p step.2) p := by
  induction rules generalizing p with
  | nil => rfl
  | cons rule rest ih =>
    have hsteps : stepsOf (rule :: rest) =
        rule.steps.map (fun step => (rule.id, step)) ++ stepsOf rest := List.flatMap_cons
    rw [List.foldl_cons, ih, hsteps, List.foldl_append, List.foldl_map]
    rfl

/-! ### The mode on the way -/

/-- The mode of a progress is that of its switches alone, followed
from the store at the start of the pass. They have changed it exactly
when the progress says so, and name modes that the store has. -/
structure Tracks (start : Store) (p : Progress) : Prop where
  modes : p.store.modes = start.modes
  mode : p.store.mode = (start.switchAll p.switches).mode
  modeSwitched : p.modeSwitched = start.switchesMode p.switches
  known : ∀ e ∈ p.switches, start.hasMode e.notes = true

/-- An envelope keeps the invariant, if a switch names a mode of the
store. -/
theorem Tracks.take {start : Store} {p : Progress} (h : Tracks start p) {e : Envelope}
    (hknown : e.action = .switchMode → start.hasMode e.notes = true) :
    Tracks start (p.take e) := by
  by_cases hswitch : e.action = .switchMode
  · -- The two stores differ in their variables, which no switch reads.
    have hmodes : p.store.modes = (start.switchAll p.switches).modes := by
      rw [h.modes, Store.modes_switchAll]
    have htake : p.take e = { p with
        store := p.store.switchMode e.notes
        switches := p.switches ++ [e]
        modeSwitched := p.modeSwitched || p.store.changesMode e.notes } := if_pos hswitch
    rw [htake]
    constructor
    case modes => rw [Store.modes_switchMode, h.modes]
    case mode =>
      rw [Store.switchAll_snoc]
      exact Store.mode_switchMode_congr hmodes h.mode e.notes
    case modeSwitched =>
      rw [Store.switchesMode_snoc, h.modeSwitched, Store.changesMode_congr hmodes h.mode]
    case known =>
      intro e' he'
      rcases List.mem_append.1 he' with hold | hnew
      · exact h.known e' hold
      · rw [List.mem_singleton] at hnew
        exact hnew ▸ hknown hswitch
  · have htake : p.take e = { p with others := p.others ++ [e] } := if_neg hswitch
    rw [htake]
    exact ⟨h.modes, h.mode, h.modeSwitched, h.known⟩

/-- All envelopes of a step keep the invariant, if their switches name
modes of the store. -/
theorem Tracks.foldl_take {start : Store} {p : Progress} (h : Tracks start p)
    (es : List Envelope)
    (hknown : ∀ e ∈ es, e.action = .switchMode → start.hasMode e.notes = true) :
    Tracks start (es.foldl Progress.take p) := by
  induction es generalizing p with
  | nil => exact h
  | cons e es ih =>
    exact ih (h.take (hknown e (by simp))) fun e' he' => hknown e' (by simp [he'])

/-- A step keeps the invariant: it only asks for modes that the store
has. -/
theorem Tracks.runStep {start : Store} {p : Progress} (h : Tracks start p) (ruleId : String)
    (step : Step) : Tracks start (Progress.runStep verbs snapshot ruleId p step) := by
  let c : StepContext := { verbs, ruleId, snapshot }
  obtain ⟨hmode, hmodes⟩ := c.mode_run p.store step
  -- The step itself only wrote variables.
  have hran : Tracks start { p with store := (c.run p.store step).1 } :=
    ⟨hmodes.trans h.modes, hmode.trans h.mode, h.modeSwitched, h.known⟩
  unfold Progress.runStep
  cases hrun : (c.run p.store step).2 with
  | ok es =>
    simp only [c] at hrun hran
    simp only [hrun]
    refine hran.foldl_take es fun e he hswitch => ?_
    have hhas := c.hasMode_of_run (Prod.ext rfl hrun) he hswitch
    rwa [Store.hasMode, h.modes] at hhas
  | error fault =>
    simp only [c] at hrun hran
    simp only [hrun]
    exact ⟨hran.modes, hran.mode, hran.modeSwitched, hran.known⟩

/-- All steps of a pass keep the invariant, one after the other. -/
theorem Tracks.foldl_runStep {start : Store} {p : Progress} (h : Tracks start p)
    (steps : List (String × Step)) :
    Tracks start (steps.foldl
      (fun p step => Progress.runStep verbs snapshot step.1 p step.2) p) := by
  induction steps generalizing p with
  | nil => exact h
  | cons step rest ih => exact ih (h.runStep verbs snapshot step.1 step.2)

end Progress

/-! ### The pass -/

variable {τ : Type} [BettingTable τ]

/-- What the steps of the rules that fire at an event ask for, and the
store after them. -/
def emitted (c : Controller τ) (event : Event) : Store × List Envelope :=
  emission c.verbs (c.snapshot event) c.store
    (stepsOf (rulesAt c.engine.rules (c.engine.pass (c.snapshot event)).2))

/-- The mode switches of a pass. -/
def switches (c : Controller τ) (event : Event) : List Envelope :=
  (c.emitted event).2.filter Envelope.isSwitch

/-- All else that the rules of a pass ask for. -/
def others (c : Controller τ) (event : Event) : List Envelope :=
  (c.emitted event).2.filter fun e => !e.isSwitch

/-- The progress of a pass once all steps have run. -/
def progress (c : Controller τ) (event : Event) : Progress :=
  (rulesAt c.engine.rules (c.engine.pass (c.snapshot event)).2).foldl
    (Progress.runRule c.verbs (c.snapshot event))
    { store := c.store, engine := (c.engine.pass (c.snapshot event)).1, switches := [],
      others := [], modeSwitched := false }

/-- A pass is its progress, with the template in between. -/
theorem handle_eq (c : Controller τ) (event : Event) :
    let p := c.progress event
    let template :=
      if event.kind = .pointEstablished ∨ p.modeSwitched = true then
        c.templateActions p.store (c.snapshot event)
      else []
    let actions := (p.switches ++ template ++ p.others).map fun e => e.withSeq (c.seq + 1)
    c.handle event =
      ({ c with
          engine := p.engine, store := p.store, seq := c.seq + 1
          table := if actions.isEmpty then c.table
            else (BettingTable.applyAll c.table actions).1 },
        { seq := c.seq + 1, event, snapshot := c.snapshot event, actions }) := by
  have hrules : (c.engine.pass (c.snapshot event)).1.rules = c.engine.rules :=
    RuleEngine.rules_pass _ _
  unfold progress
  rw [← hrules]
  rfl

/-- The progress of a pass is the emission of its steps, sorted, and the
engine has judged its rules before. -/
theorem progress_eq (c : Controller τ) (event : Event) :
    (c.progress event).store = (c.emitted event).1 ∧
      (c.progress event).switches = c.switches event ∧
      (c.progress event).others = c.others event ∧
      (c.progress event).engine.armed = (c.engine.pass (c.snapshot event)).1.armed := by
  unfold progress
  rw [Progress.foldl_runRule]
  exact Progress.foldl_runStep c.verbs (c.snapshot event)
    { store := c.store, engine := (c.engine.pass (c.snapshot event)).1, switches := [],
      others := [], modeSwitched := false }
    (stepsOf (rulesAt c.engine.rules (c.engine.pass (c.snapshot event)).2))

/-- The mode on the way through a pass. -/
theorem progress_tracks (c : Controller τ) (event : Event) :
    Progress.Tracks c.store (c.progress event) := by
  have hstart : Progress.Tracks c.store
      { store := c.store, engine := (c.engine.pass (c.snapshot event)).1, switches := [],
        others := [], modeSwitched := false } :=
    ⟨rfl, rfl, rfl, fun e he => by cases he⟩
  unfold progress
  rw [Progress.foldl_runRule]
  exact hstart.foldl_runStep c.verbs (c.snapshot event) _

/-- The envelopes of a pass. Whether the template has its say is up
to the event and to the switches, followed from the store before the
pass. -/
theorem actions_handle (c : Controller τ) (event : Event) :
    (c.handle event).2.actions =
      (c.switches event ++
        (if event.kind = .pointEstablished ∨ c.store.switchesMode (c.switches event) = true then
          c.templateActions (c.emitted event).1 (c.snapshot event)
        else []) ++
        c.others event).map fun e => e.withSeq (c.seq + 1) := by
  obtain ⟨hstore, hswitches, hothers, _⟩ := c.progress_eq event
  -- The flag of the progress is read off the switches.
  have hswitched := (c.progress_tracks event).modeSwitched
  rw [hswitches] at hswitched
  rw [handle_eq]
  simp only [hstore, hswitches, hothers, hswitched]

/-- A pass leaves the store of its emission. The template changes
nothing in it. -/
@[simp]
theorem store_handle (c : Controller τ) (event : Event) :
    (c.handle event).1.store = (c.emitted event).1 := by
  rw [handle_eq]
  exact (c.progress_eq event).1

/-- In a pass every rule is judged once. Steps add to the trace at
most. -/
theorem armed_handle (c : Controller τ) (event : Event) :
    (c.handle event).1.engine.armed =
      c.engine.armed.map fun armed => (armed.judged (c.snapshot event)).armed := by
  rw [handle_eq]
  exact (c.progress_eq event).2.2.2.trans (c.engine.armed_pass _)

/-- A pass never adds or drops a rule. -/
@[simp]
theorem rules_handle (c : Controller τ) (event : Event) :
    (c.handle event).1.engine.rules = c.engine.rules := by
  rw [RuleEngine.rules, armed_handle, List.map_map]
  rfl

/-- A pass leaves the modes to choose from alone. -/
theorem modes_emitted (c : Controller τ) (event : Event) :
    (c.emitted event).1.modes = c.store.modes := by
  rw [← (c.progress_eq event).1]
  exact (c.progress_tracks event).modes

/-- Every switch that a pass asks for names a mode of the strategy. -/
theorem hasMode_of_mem_switches {c : Controller τ} {event : Event} {e : Envelope}
    (he : e ∈ c.switches event) : c.store.hasMode e.notes = true := by
  rw [← (c.progress_eq event).2.1] at he
  exact (c.progress_tracks event).known e he

/-- The last switch of a pass names the mode after it. -/
theorem mode_emitted (c : Controller τ) (event : Event) :
    (c.emitted event).1.mode =
      ((c.switches event).getLast?.map Envelope.notes).getD c.mode := by
  have hmode := (c.progress_tracks event).mode
  rw [(c.progress_eq event).1, (c.progress_eq event).2.1] at hmode
  rw [hmode, Store.mode_switchAll fun e he => hasMode_of_mem_switches he]
  rfl

end Controller

end CrapsStrategy
