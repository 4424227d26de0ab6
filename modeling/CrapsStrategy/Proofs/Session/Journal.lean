import CrapsStrategy.Proofs.Session.Reachable
import CrapsStrategy.Session.Run

/-!
# `CrapsStrategy.Proofs.Session.Journal`: what a run writes down

A property of a whole run speaks of its passes, each with the
controller before it. `Turn` is such a pass, and there are two ways
to collect them.

`Controller.Logged` has the same steps as `Controller.Reachable` and
logs the passes: any event may be handled, and anything may be done
to the controller in between. `Play` follows the commands of a table
and nothing else, and its journal also notes where the table was
started over. It is the run of a session without the books
(`run_eq_after`), and one of the runs that are logged (`Play.logged`).

`Play.follow_induction` takes a command apart into single passes, and
`Play.after_induction` a whole play, so that an invariant needs one
step for a pass and one for what happens to the tracker.
-/

set_option autoImplicit false

namespace CrapsStrategy

variable {τ : Type}

/-- A pass of a run: the controller before it, and the event. -/
structure Turn (τ : Type) where
  before : Controller τ
  event : Event

namespace Turn

variable [BettingTable τ]

/-- The controller after the pass. -/
def after (t : Turn τ) : Controller τ :=
  (t.before.handle t.event).1

/-- The pass as it was handed back. -/
def pass (t : Turn τ) : Pass :=
  (t.before.handle t.event).2

/-- The snapshot that the rules are judged at. -/
def snapshot (t : Turn τ) : Snapshot :=
  t.before.snapshot t.event

/-- The verdict on the rule at a position. -/
def verdict? (t : Turn τ) (position : Nat) : Option Verdict :=
  (t.before.engine.tick.judgeAll t.snapshot)[position]?.bind RuleEngine.Judged.verdict

end Turn

/-! ### Logged runs -/

namespace Controller

variable {strategy : Strategy}

/-- A controller of a strategy at a table, before its first pass. -/
def Ready (strategy : Strategy) (table : τ) (c : Controller τ) : Prop :=
  ∃ (started : Controller τ) (verbs : Verbs) (traced : Bool),
    start strategy table = .ok started ∧ c = (started.withVerbs verbs).withTrace traced

/-- Standard verbs and no trace are what a controller starts with. -/
theorem Ready.of_start {table : τ} {c : Controller τ} (hstart : start strategy table = .ok c) :
    Ready strategy table c := by
  refine ⟨c, .standard, false, hstart, ?_⟩
  obtain ⟨_, rules, _, rfl⟩ := start_eq_ok hstart
  rfl

/-- Getting a controller ready does not touch the table. -/
theorem Ready.table_eq {table : τ} {c : Controller τ} (h : Ready strategy table c) :
    c.table = table := by
  obtain ⟨started, verbs, traced, hstart, rfl⟩ := h
  obtain ⟨_, rules, _, rfl⟩ := start_eq_ok hstart
  rfl

/-- The table has not been rolled at. -/
theorem Ready.tracker_eq {table : τ} {c : Controller τ} (h : Ready strategy table c) :
    c.tracker = .fresh := by
  obtain ⟨started, verbs, traced, hstart, rfl⟩ := h
  obtain ⟨_, rules, _, rfl⟩ := start_eq_ok hstart
  rfl

variable [BettingTable τ]

/-- The controllers that a run of a strategy comes to, with the log of
its passes. -/
inductive Logged (strategy : Strategy) : List (Turn τ) → Controller τ → Prop
  | start (table : τ) (c : Controller τ) (hstart : Controller.start strategy table = .ok c) :
      Logged strategy [] c
  | handle (log : List (Turn τ)) (c : Controller τ) (event : Event) (hc : Logged strategy log c) :
      Logged strategy (log ++ [{ before := c, event }]) (c.handle event).1
  | tracker (log : List (Turn τ)) (c : Controller τ) (tracker : Tracker)
      (hc : Logged strategy log c) : Logged strategy log { c with tracker }
  | table (log : List (Turn τ)) (c : Controller τ) (table : τ) (hc : Logged strategy log c) :
      Logged strategy log { c with table }
  | withVerbs (log : List (Turn τ)) (c : Controller τ) (verbs : Verbs)
      (hc : Logged strategy log c) : Logged strategy log (c.withVerbs verbs)
  | withTrace (log : List (Turn τ)) (c : Controller τ) (traced : Bool)
      (hc : Logged strategy log c) : Logged strategy log (c.withTrace traced)
  | dropTrace (log : List (Turn τ)) (c : Controller τ) (hc : Logged strategy log c) :
      Logged strategy log { c with engine := c.engine.dropTrace }

namespace Logged

variable {log : List (Turn τ)} {c : Controller τ}

/-- A logged run only comes to controllers that are reachable. -/
theorem reachable (h : Logged strategy log c) : Reachable strategy c := by
  induction h with
  | start table c hstart => exact .start table c hstart
  | handle log c event _ ih => exact .handle c event ih
  | tracker log c tracker _ ih => exact .tracker c tracker ih
  | table log c table _ ih => exact .table c table ih
  | withVerbs log c verbs _ ih => exact .withVerbs c verbs ih
  | withTrace log c traced _ ih => exact .withTrace c traced ih
  | dropTrace log c _ ih => exact .dropTrace c ih

/-- The controller before a pass has been reached too. -/
theorem reachable_before (h : Logged strategy log c) {t : Turn τ} (ht : t ∈ log) :
    Reachable strategy t.before := by
  induction h with
  | start table c hstart => cases ht
  | handle log c event hc ih =>
    rcases List.mem_append.1 ht with hold | hnew
    · exact ih hold
    · rw [List.mem_singleton.1 hnew]
      exact hc.reachable
  | tracker _ _ _ _ ih | table _ _ _ _ ih | withVerbs _ _ _ _ ih | withTrace _ _ _ _ ih
  | dropTrace _ _ _ ih => exact ih ht

end Logged

/-- Getting a controller ready logs nothing. -/
theorem Ready.logged {table : τ} {c : Controller τ} (h : Ready strategy table c) :
    Logged strategy [] c := by
  obtain ⟨started, verbs, traced, hstart, rfl⟩ := h
  exact .withTrace _ _ traced (.withVerbs _ _ verbs (.start table started hstart))

end Controller

/-! ### Plays -/

/-- The events that a tracker derives by itself: those of a roll, and
that of a bet that was settled elsewhere. -/
inductive Event.Derived : Event → Prop
  | roll (t next : Tracker) (total : Nat) (dice : Option (Nat × Nat)) (events : List Event)
      (hroll : t.roll? total dice = some (next, events)) (event : Event)
      (hevent : event ∈ events) : Derived event
  | resolve (t : Tracker) (bet result : String) (payout : Option Binary64) :
      Derived (t.resolve bet result payout)

/-- An entry of a journal: a pass, or a table that was started
over. -/
inductive Entry (τ : Type) where
  | turn (t : Turn τ)
  | reset

/-- The pass of an entry, if it is one. -/
def Entry.turn? : Entry τ → Option (Turn τ)
  | turn t => some t
  | reset => none

/-- A controller with the journal of its run. -/
structure Play (τ : Type) where
  controller : Controller τ
  journal : List (Entry τ)

namespace Play

/-- The passes in the journal. -/
def turns (p : Play τ) : List (Turn τ) :=
  p.journal.filterMap Entry.turn?

/-- A pass in the journal is one of the turns. -/
theorem mem_turns_of_journal {p : Play τ} {past : List (Entry τ)} {t : Turn τ}
    (hturn : past ++ [.turn t] <+: p.journal) : t ∈ p.turns :=
  List.mem_filterMap.2 ⟨.turn t, hturn.subset (by simp), rfl⟩

/-- A play with another tracker. -/
def withTracker (p : Play τ) (tracker : Tracker) : Play τ :=
  { p with controller := { p.controller with tracker } }

/-- A play after a table was started over. -/
def reset (p : Play τ) : Play τ :=
  { controller := p.controller.resetTable, journal := p.journal ++ [.reset] }

/-- The tracker of a play is no part of its turns. -/
@[simp]
theorem turns_withTracker (p : Play τ) (tracker : Tracker) :
    (p.withTracker tracker).turns = p.turns := rfl

/-- Starting over adds no turn. -/
@[simp]
theorem turns_reset (p : Play τ) : p.reset.turns = p.turns := by
  simp [turns, reset, Entry.turn?]

variable [BettingTable τ] {strategy : Strategy}

/-- A play after one more pass. -/
def handle (p : Play τ) (event : Event) : Play τ :=
  { controller := (p.controller.handle event).1
    journal := p.journal ++ [.turn { before := p.controller, event }] }

/-- An event adds its own turn. -/
@[simp]
theorem turns_handle (p : Play τ) (event : Event) :
    (p.handle event).turns = p.turns ++ [{ before := p.controller, event }] := by
  simp [turns, handle, Entry.turn?]

/-- A play after a command. A roll that cannot happen changes
nothing. -/
def follow (p : Play τ) : Command → Play τ
  | .roll total dice =>
    match p.controller.tracker.roll? total dice with
    | some (tracker, events) => events.foldl handle (p.withTracker tracker)
    | none => p
  | .resolve bet result payout => p.handle (p.controller.tracker.resolve bet result payout)
  | .resetTable => p.reset

/-- The play of a controller that follows commands in order. -/
def after (c : Controller τ) (commands : List Command) : Play τ :=
  commands.foldl follow { controller := c, journal := [] }

/-- A play follows its commands one by one. -/
theorem after_snoc (c : Controller τ) (commands : List Command) (command : Command) :
    after c (commands ++ [command]) = (after c commands).follow command := by
  simp [after]

/-- What any pass, any move of the tracker and any fresh table keep, a
command keeps. The events of a pass are those that a tracker derives. -/
theorem follow_induction {motive : Play τ → Prop} {p : Play τ} (hp : motive p)
    (hhandle : ∀ p event, event.Derived → motive p → motive (p.handle event))
    (htracker : ∀ p tracker, motive p → motive (p.withTracker tracker))
    (hreset : ∀ p, motive p → motive p.reset) (command : Command) :
    motive (p.follow command) := by
  cases command with
  | roll total dice =>
    rw [follow]
    split
    · rename_i tracker events hroll
      exact List.foldlRecOn (motive := motive) events handle (htracker p tracker hp)
        fun p hp event hevent => hhandle p event (.roll _ _ _ _ _ hroll event hevent) hp
    · exact hp
  | resolve bet result payout => exact hhandle p _ (.resolve _ bet result payout) hp
  | resetTable => exact hreset p hp

/-- What holds at the start, and still after any pass, any move of the
tracker and any fresh table, holds after any commands. -/
theorem after_induction {motive : Play τ → Prop} {c : Controller τ}
    (hstart : motive { controller := c, journal := [] })
    (hhandle : ∀ p event, motive p → motive (p.handle event))
    (htracker : ∀ p tracker, motive p → motive (p.withTracker tracker))
    (hreset : ∀ p, motive p → motive p.reset) (commands : List Command) :
    motive (after c commands) :=
  List.foldlRecOn (motive := motive) commands follow hstart fun _ hp command _ =>
    follow_induction hp (fun p event _ => hhandle p event) htracker hreset command

/-- A property that every happening keeps holds before every pass in the
journal too. -/
theorem before_induction {motive : Play τ → Prop} {c : Controller τ}
    (hstart : motive { controller := c, journal := [] })
    (hhandle : ∀ p event, motive p → motive (p.handle event))
    (htracker : ∀ p tracker, motive p → motive (p.withTracker tracker))
    (hreset : ∀ p, motive p → motive p.reset) (commands : List Command)
    {past : List (Entry τ)} {t : Turn τ}
    (hturn : past ++ [.turn t] <+: (after c commands).journal) :
    motive { controller := t.before, journal := past } := by
  suffices h : motive (after c commands) ∧ ∀ past t,
      past ++ [.turn t] <+: (after c commands).journal →
        motive { controller := t.before, journal := past } from h.2 past t hturn
  refine after_induction (motive := fun p => motive p ∧ ∀ past t,
    past ++ [.turn t] <+: p.journal → motive { controller := t.before, journal := past })
    ⟨hstart, fun past t hprefix => ?_⟩ ?_ ?_ ?_ commands
  · -- No pass is in an empty journal.
    simp at hprefix
  · rintro p event ⟨hp, hturns⟩
    refine ⟨hhandle p event hp, fun past t hprefix => ?_⟩
    -- The pass is the new one or one before it.
    rcases List.prefix_concat_iff.1 hprefix with hnew | hold
    · obtain ⟨rfl, hentry⟩ := List.append_inj' hnew rfl
      cases hentry
      exact hp
    · exact hturns past t hold
  · rintro p tracker ⟨hp, hturns⟩
    exact ⟨htracker p tracker hp, hturns⟩
  · rintro p ⟨hp, hturns⟩
    refine ⟨hreset p hp, fun past t hprefix => ?_⟩
    rcases List.prefix_concat_iff.1 hprefix with hnew | hold
    · obtain ⟨_, hentry⟩ := List.append_inj' hnew rfl
      cases hentry
    · exact hturns past t hold

/-- A play is a logged run. -/
theorem logged {c : Controller τ} (hc : Controller.Logged strategy [] c)
    (commands : List Command) :
    Controller.Logged strategy (after c commands).turns (after c commands).controller := by
  refine after_induction (motive := fun p => Controller.Logged strategy p.turns p.controller)
    hc (fun p event hp => ?_) (fun p tracker hp => ?_) (fun p hp => ?_) commands
  · rw [turns_handle]
    exact .handle p.turns p.controller event hp
  · exact .tracker p.turns p.controller tracker hp
  · rw [turns_reset]
    exact .tracker p.turns p.controller .fresh hp

/-! ### Sessions -/

/-- The passes of events in order, on the controller and in the
journal. -/
theorem foldl_handle (p : Play τ) (events : List Event) :
    (events.foldl handle p).controller = (p.controller.handleAll events).1 ∧
      (events.foldl handle p).turns.map Turn.pass =
        p.turns.map Turn.pass ++ (p.controller.handleAll events).2 := by
  induction events generalizing p with
  | nil => simp [Controller.handleAll]
  | cons event events ih =>
    obtain ⟨hcontroller, hturns⟩ := ih (p.handle event)
    rw [List.foldl_cons, hcontroller, hturns, turns_handle, List.map_append, List.append_assoc]
    exact ⟨rfl, rfl⟩

/-- One command leads a session and a play to the same controller and
the same passes. -/
theorem perform_eq_follow (s : Session τ) {p : Play τ} (hsame : s.controller = p.controller)
    (command : Command) :
    (s.perform command).1.controller = (p.follow command).controller ∧
      p.turns.map Turn.pass ++ Session.passesOf (s.perform command).2 =
        (p.follow command).turns.map Turn.pass := by
  cases command with
  | roll total dice =>
    rw [Session.perform, Controller.roll, follow, hsame]
    cases hroll : p.controller.tracker.roll? total dice with
    | none => exact ⟨hsame, List.append_nil _⟩
    | some result =>
      obtain ⟨tracker, events⟩ := result
      obtain ⟨hcontroller, hturns⟩ := foldl_handle (p.withTracker tracker) events
      exact ⟨hcontroller.symm, hturns.symm⟩
  | resolve bet result payout =>
    rw [Session.perform, follow, hsame]
    refine ⟨rfl, ?_⟩
    rw [turns_handle, List.map_append]
    rfl
  | resetTable =>
    rw [Session.perform, follow, turns_reset, hsame]
    exact ⟨rfl, List.append_nil _⟩

/-- A session is a play with books: its controller is that of the play,
and its passes are those in the journal. -/
theorem run_eq_after (s : Session τ) (commands : List Command) :
    (s.run commands).1.controller = (after s.controller commands).controller ∧
      (s.run commands).2 = (after s.controller commands).turns.map Turn.pass := by
  induction commands using List.reverseRecOn with
  | nil => exact ⟨rfl, rfl⟩
  | append_singleton commands command ih =>
    obtain ⟨hcontroller, hpasses⟩ := ih
    have hrun : s.run (commands ++ [command]) = Session.step (s.run commands) command := by
      simp [Session.run]
    obtain ⟨hnext, hturns⟩ := perform_eq_follow (s.run commands).1 hcontroller command
    rw [hrun, after_snoc, ← hturns, ← hpasses]
    exact ⟨hnext, rfl⟩

end Play

end CrapsStrategy
