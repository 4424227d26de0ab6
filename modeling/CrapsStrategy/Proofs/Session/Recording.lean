import CrapsStrategy.Proofs.Session.Journal
import CrapsStrategy.Proofs.Session.Ledger

/-!
# `CrapsStrategy.Proofs.Session.Recording`: plays with books

A `Recording` is a play with the books that are kept beside it from
the first pass on. It goes on by happenings, which take in more than
the commands of a table: an event may be handed over that was derived
elsewhere, and between two passes the table may change by itself, as
a table does that settles its bets.

`Recording.sound_after` is what a recording keeps: its play is a
logged run, and its books are the books of the passes in the journal.
A recording that only follows commands is `Session.run`
(`session_after_commands`).
-/

set_option autoImplicit false

namespace CrapsStrategy

variable {τ : Type}

/-- An event that says which point it established, if it did. -/
def Event.NamesPoint (e : Event) : Prop :=
  e.kind = .pointEstablished → e.point.isSome = true

/-- A total that sets the point names it. -/
theorem Tracker.namesPoint_settle (t : Tracker) (total : Nat) : (t.settle total).2.NamesPoint := by
  unfold settle
  split
  · split
    · exact fun _ => rfl
    · exact fun hkind => nomatch hkind
  · -- With a point on, none is established.
    split
    · exact fun hkind => nomatch hkind
    · split <;> exact fun hkind => nomatch hkind

/-- The marker of a hand is about no point. -/
theorem Tracker.namesPoint_openHand {t : Tracker} {e : Event} (he : e ∈ t.openHand.2) :
    e.NamesPoint := by
  unfold openHand at he
  dsimp only at he
  split at he
  · -- A marker establishes nothing.
    rw [List.mem_singleton.1 he]
    exact fun hkind => nomatch hkind
  · cases he

/-- A tracker never establishes a point without naming it. -/
theorem Event.Derived.namesPoint {e : Event} (h : e.Derived) : e.NamesPoint := by
  cases h with
  | roll t next total dice events hroll _ hevent =>
    unfold Tracker.roll? at hroll
    split at hroll
    · dsimp only at hroll
      rw [Option.some.injEq, Prod.mk.injEq] at hroll
      rw [← hroll.2] at hevent
      rcases List.mem_append.1 hevent with hopening | hmain
      · exact Tracker.namesPoint_openHand hopening
      · rw [List.mem_singleton.1 hmain]
        exact Tracker.namesPoint_settle _ total
    · cases hroll
  | resolve t bet result payout => exact fun hkind => nomatch hkind

/-! ### Happenings -/

/-- What may be done to a controller between two passes. -/
inductive Change (τ : Type) where
  /-- The table changes by itself. -/
  | table (table : τ)
  | verbs (verbs : Verbs)
  | trace (traced : Bool)
  | dropTrace

/-- A controller after a change. -/
def Change.apply (c : Controller τ) : Change τ → Controller τ
  | table t => { c with table := t }
  | verbs v => c.withVerbs v
  | trace traced => c.withTrace traced
  | dropTrace => { c with engine := c.engine.dropTrace }

/-- What may happen to a session. -/
inductive Happening (τ : Type) where
  | command (command : Command)
  /-- An event that was derived elsewhere is handed over. -/
  | event (event : Event)
  | change (change : Change τ)

/-- The commands among some happenings. -/
def commandsOf (happenings : List (Happening τ)) : List Command :=
  happenings.filterMap fun
    | .command command => some command
    | _ => none

/-- A happening adds its command, if it is one. -/
theorem commandsOf_snoc (happenings : List (Happening τ)) (happening : Happening τ) :
    commandsOf (happenings ++ [happening]) = commandsOf happenings ++ commandsOf [happening] :=
  List.filterMap_append

/-- A play with books. -/
structure Recording (τ : Type) extends Play τ where
  ledger : Ledger

namespace Recording

/-- A recording as it is seen from outside. -/
def session (r : Recording τ) : Session τ :=
  { controller := r.controller, ledger := r.ledger }

variable [BettingTable τ] {strategy : Strategy}

/-- A recording after one more happening. -/
def follow (r : Recording τ) : Happening τ → Recording τ
  | .command command =>
    { toPlay := r.toPlay.follow command, ledger := (r.session.perform command).1.ledger }
  | .event event =>
    { toPlay := r.toPlay.handle event
      ledger := r.ledger.addPass (r.controller.handle event).2 }
  | .change change => { r with controller := change.apply r.controller }

/-- The recording of a controller whose books are opened before its
first pass. -/
def after (c : Controller τ) (happenings : List (Happening τ)) : Recording τ :=
  happenings.foldl follow { controller := c, journal := [], ledger := .empty }

/-- A recording goes on happening by happening. -/
theorem after_snoc (c : Controller τ) (happenings : List (Happening τ))
    (happening : Happening τ) :
    after c (happenings ++ [happening]) = (after c happenings).follow happening := by
  simp [after]

/-- The passes of a recording. -/
def passes (r : Recording τ) : List Pass :=
  r.turns.map Turn.pass

/-- A command makes of a recording what it makes of its session. -/
theorem session_follow (r : Recording τ) (command : Command) :
    (r.follow (.command command)).session = (r.session.perform command).1 ∧
      (r.follow (.command command)).passes =
        r.passes ++ Session.passesOf (r.session.perform command).2 := by
  obtain ⟨hcontroller, hpasses⟩ :=
    Play.perform_eq_follow r.session (p := r.toPlay) rfl command
  refine ⟨?_, hpasses.symm⟩
  have hsession : (r.follow (.command command)).session =
      { (r.session.perform command).1 with controller := (r.toPlay.follow command).controller } :=
    rfl
  rw [hsession, ← hcontroller]

/-- A recording that only follows commands is the run of a session. -/
theorem session_after_commands (c : Controller τ) (commands : List Command) :
    let r := after c (commands.map .command)
    Session.run { controller := c, ledger := .empty } commands = (r.session, r.passes) := by
  induction commands using List.reverseRecOn with
  | nil => rfl
  | append_singleton commands command ih =>
    obtain ⟨hsession, hpasses⟩ := session_follow (after c (commands.map .command)) command
    intro r
    have hr : r = (after c (commands.map .command)).follow (.command command) := by
      rw [← after_snoc, ← List.map_singleton, ← List.map_append]
    rw [hr, hsession, hpasses]
    unfold Session.run at ih ⊢
    rw [List.foldl_append, ih]
    rfl

/-! ### What a recording keeps -/

/-- The invariant of recordings. -/
structure Sound (strategy : Strategy) (r : Recording τ) : Prop where
  logged : Controller.Logged strategy r.turns r.controller
  ledger : r.ledger = .ofPasses r.passes

/-- An event that is handed over has its pass like any other. -/
@[simp]
theorem turns_event (r : Recording τ) (event : Event) :
    (r.follow (.event event)).turns = r.turns ++ [{ before := r.controller, event }] :=
  r.toPlay.turns_handle event

/-- One more pass, with its line in the books. -/
theorem Sound.handle {r : Recording τ} (h : Sound strategy r) (event : Event) :
    Sound strategy (r.follow (.event event)) := by
  constructor
  case logged =>
    rw [turns_event]
    exact .handle r.turns r.controller event h.logged
  case ledger =>
    rw [passes, turns_event, List.map_append, List.map_singleton, Ledger.ofPasses_snoc]
    show r.ledger.addPass _ = _
    rw [h.ledger]
    rfl

/-- A change between two passes is no pass, and leaves the books. -/
theorem Sound.change {r : Recording τ} (h : Sound strategy r) (change : Change τ) :
    Sound strategy (r.follow (.change change)) := by
  refine ⟨?_, h.ledger⟩
  show Controller.Logged strategy r.turns (change.apply r.controller)
  cases change with
  | table table => exact .table _ _ table h.logged
  | verbs verbs => exact .withVerbs _ _ verbs h.logged
  | trace traced => exact .withTrace _ _ traced h.logged
  | dropTrace => exact .dropTrace _ _ h.logged

/-- A command books all its passes. -/
theorem ledger_perform (s : Session τ) (command : Command) :
    (s.perform command).1.ledger =
      (Session.passesOf (s.perform command).2).foldl Ledger.addPass s.ledger := by
  unfold Session.perform
  cases command with
  | roll total dice =>
    dsimp only
    split <;> rfl
  | resolve bet result payout => rfl
  | resetTable => rfl

/-- A command keeps play and books together: the session adds the same
passes to the books that the play adds to its journal. -/
theorem Sound.command {r : Recording τ} (h : Sound strategy r) (command : Command) :
    Sound strategy (r.follow (.command command)) := by
  constructor
  case logged =>
    -- The play goes on by passes and by moves of the tracker.
    refine Play.follow_induction (motive := fun p =>
      Controller.Logged strategy p.turns p.controller) h.logged ?_ ?_ ?_ command
    · intro p event _ hp
      rw [Play.turns_handle]
      exact .handle p.turns p.controller event hp
    · exact fun p tracker hp => .tracker p.turns p.controller tracker hp
    · intro p hp
      rw [Play.turns_reset]
      exact .tracker p.turns p.controller .fresh hp
  case ledger =>
    obtain ⟨_, hpasses⟩ := session_follow r command
    rw [hpasses, Ledger.ofPasses, List.foldl_append]
    show (r.session.perform command).1.ledger = List.foldl _ (Ledger.ofPasses r.passes) _
    rw [ledger_perform, ← h.ledger]
    rfl

/-- The books are those of the passes, whatever has happened. -/
theorem sound_after {table : τ} {c : Controller τ} (hready : c.Ready strategy table)
    (happenings : List (Happening τ)) : Sound strategy (after c happenings) :=
  List.foldlRecOn (motive := Sound strategy) happenings follow ⟨hready.logged, rfl⟩
    fun _ h happening _ => by
      cases happening with
      | command command => exact h.command command
      | event event => exact h.handle event
      | change change => exact h.change change

/-- Every event of a recording names the point that it establishes,
if those do that were handed over. -/
theorem namesPoint_after (c : Controller τ) (happenings : List (Happening τ))
    (hpoints : ∀ event, .event event ∈ happenings → event.NamesPoint) :
    ∀ t ∈ (after c happenings).turns, t.event.NamesPoint := by
  -- Of one more turn, whoever derived its event.
  have hsnoc : ∀ {turns : List (Turn τ)} {last : Turn τ}, last.event.NamesPoint →
      (∀ t ∈ turns, t.event.NamesPoint) → ∀ t ∈ turns ++ [last], t.event.NamesPoint := by
    intro turns last hlast hturns t ht
    rcases List.mem_append.1 ht with hold | hnew
    · exact hturns t hold
    · rw [List.mem_singleton.1 hnew]
      exact hlast
  refine List.foldlRecOn (motive := fun r : Recording τ => ∀ t ∈ r.turns, t.event.NamesPoint)
    happenings follow (fun t ht => by cases ht) fun r h happening hmem => ?_
  cases happening with
  | command command =>
    refine Play.follow_induction (motive := fun p => ∀ t ∈ p.turns, t.event.NamesPoint) h
      (fun p event hderived hp => ?_) (fun _ _ hp => hp) (fun p hp => ?_) command
    · rw [Play.turns_handle]
      exact hsnoc hderived.namesPoint hp
    · rwa [Play.turns_reset]
  | event event =>
    rw [turns_event]
    exact hsnoc (hpoints event hmem) h
  | change change => exact h

end Recording

end CrapsStrategy
