import CrapsStrategy.Proofs.Event.History
import CrapsStrategy.Proofs.Session.Recording
import Mathlib.Order.Bounds.Basic

/-!
# `CrapsStrategy.Proofs.Session.Closing`: the closing figures of the books

Three figures of the books are not counts. The bankroll is the one in
the snapshot of the last pass, taken before the pass moves money. The
rolls and the hands are the highest numbers that any event carried,
and these numbers begin again when the table is started over.

`WatchedTable.marks` are the counts that a table goes through, and
`Recording.watched_after` says that the books hold the highest of
them. They are the counts over the whole run when the table was never
started over (`rolls_after`, `comeouts_after`).
-/

set_option autoImplicit false

namespace CrapsStrategy

variable {τ : Type}

/-- Whether a command is a roll that is accepted. -/
def Command.isAccepted : Command → Bool
  | roll total dice => Tracker.accepts total dice
  | _ => false

/-! ### What a command derives -/

namespace Tracker

/-- A tracker after a command, and the events of it. -/
def derive (t : Tracker) : Command → Tracker × List Event
  | .roll total dice => (t.roll? total dice).getD (t, [])
  | .resolve bet result payout => (t, [t.resolve bet result payout])
  | .resetTable => (fresh, [])

variable {t next : Tracker} {total : Nat} {dice : Option (Nat × Nat)} {events : List Event}

/-- A roll that is refused leaves the tracker and derives nothing. -/
theorem derive_of_refused (h : t.roll? total dice = none) :
    t.derive (.roll total dice) = (t, []) := by
  rw [derive, h]
  rfl

/-- A roll that is accepted derives what the tracker says. -/
theorem derive_of_accepted (h : t.roll? total dice = some (next, events)) :
    t.derive (.roll total dice) = (next, events) := by
  rw [derive, h]
  rfl

/-- Whether a roll is accepted depends on the total and the dice alone,
not on the table. -/
theorem isSome_roll? (t : Tracker) (total : Nat) (dice : Option (Nat × Nat)) :
    (t.roll? total dice).isSome = accepts total dice := by
  unfold roll?
  cases accepts total dice <;> rfl

end Tracker

namespace WatchedTable

variable {w : WatchedTable} {next : Tracker} {total : Nat} {dice : Option (Nat × Nat)}
  {events : List Event}

/-- A table does not notice a roll that is refused. -/
theorem follow_of_refused (h : w.tracker.roll? total dice = none) :
    w.follow (.roll total dice) = w := by
  simp only [follow, h]

/-- One that is accepted puts its events in front of the past, the
latest first. -/
theorem follow_of_accepted (h : w.tracker.roll? total dice = some (next, events)) :
    w.follow (.roll total dice) = { tracker := next, past := events.reverse ++ w.past } := by
  simp only [follow, h]

/-- A watched table has the tracker that the command derives. -/
theorem tracker_follow (w : WatchedTable) (command : Command) :
    (w.follow command).tracker = (w.tracker.derive command).1 := by
  cases command with
  | roll total dice =>
    cases hroll : w.tracker.roll? total dice with
    | none => rw [follow_of_refused hroll, Tracker.derive_of_refused hroll]
    | some result => rw [follow_of_accepted hroll, Tracker.derive_of_accepted hroll]
  | resolve bet result payout => rfl
  | resetTable => rfl

/-- Every event of a command carries the counts after the command. -/
theorem counts_derive (h : w.tracker.Counts w.past) {command : Command} {e : Event}
    (he : e ∈ (w.tracker.derive command).2) :
    e.rollIndex = History.rolls (w.follow command).past ∧
      e.handId = History.ofKind .comeout (w.follow command).past := by
  cases command with
  | roll total dice =>
    cases hroll : w.tracker.roll? total dice with
    | none =>
      rw [Tracker.derive_of_refused hroll] at he
      cases he
    | some result =>
      obtain ⟨next, events⟩ := result
      rw [Tracker.derive_of_accepted hroll] at he
      rw [follow_of_accepted hroll]
      cases (h.roll hroll).2 with
      | opening marker main hstarts hmarker hmain hfirst hsecond =>
        show e.rollIndex = History.rolls (main :: marker :: w.past) ∧
          e.handId = History.ofKind .comeout (main :: marker :: w.past)
        rcases List.mem_cons.1 he with rfl | he
        · -- The marker counts the roll that it precedes.
          rw [hfirst.rollIndex, hfirst.handId, if_pos hmarker, History.rolls_cons_main hmain,
            History.ofKind_cons _ main, if_neg hmain]
          exact ⟨rfl, rfl⟩
        · rw [List.mem_singleton.1 he]
          refine ⟨?_, hsecond.handId⟩
          rw [hsecond.rollIndex, if_neg hmain, Nat.add_zero]
      | plain main hgoes hmain hrecounts =>
        rw [List.mem_singleton.1 he]
        refine ⟨?_, hrecounts.handId⟩
        rw [hrecounts.rollIndex, if_neg hmain, Nat.add_zero]
        rfl
  | resolve bet result payout =>
    rw [List.mem_singleton.1 he]
    exact ⟨h.rollIndex, h.handId⟩
  | resetTable => cases he

/-- A command without events leaves a table as it is, or opens it
anew. -/
theorem follow_of_derive_nil (h : w.tracker.Counts w.past) {command : Command}
    (hnone : (w.tracker.derive command).2 = []) :
    w.follow command = w ∨ w.follow command = fresh := by
  cases command with
  | roll total dice =>
    cases hroll : w.tracker.roll? total dice with
    | none => exact .inl (follow_of_refused hroll)
    | some result =>
      -- An accepted roll has its own event.
      obtain ⟨next, events⟩ := result
      rw [Tracker.derive_of_accepted hroll] at hnone
      cases (h.roll hroll).2 <;> cases hnone
  | resolve bet result payout => cases hnone
  | resetTable => exact .inr rfl

/-- Unless it opens the table anew, a command adds to the rolls when
it is an accepted one, and to the hands with every marker. -/
theorem counts_follow_add (h : w.tracker.Counts w.past) {command : Command}
    (hreset : command ≠ .resetTable) :
    History.rolls (w.follow command).past =
        History.rolls w.past + (if command.isAccepted then 1 else 0) ∧
      History.ofKind .comeout (w.follow command).past =
        History.ofKind .comeout w.past +
          (w.tracker.derive command).2.countP fun e => e.kind = .comeout := by
  cases command with
  | roll total dice =>
    have haccepted : Command.isAccepted (.roll total dice) =
        (w.tracker.roll? total dice).isSome := (w.tracker.isSome_roll? total dice).symm
    rw [haccepted]
    cases hroll : w.tracker.roll? total dice with
    | none =>
      rw [follow_of_refused hroll, Tracker.derive_of_refused hroll]
      exact ⟨rfl, rfl⟩
    | some result =>
      obtain ⟨next, events⟩ := result
      rw [follow_of_accepted hroll, Tracker.derive_of_accepted hroll]
      cases (h.roll hroll).2 with
      | opening marker main hstarts hmarker hmain hfirst hsecond =>
        simp [History.rolls_cons_main hmain, History.rolls_cons_marker hmarker, hmarker, hmain]
      | plain main hgoes hmain hrecounts => simp [History.rolls_cons_main hmain, hmain]
  | resolve bet result payout => exact ⟨rfl, rfl⟩
  | resetTable => exact absurd rfl hreset

/-! ### The highest counts -/

/-- The values of a count that a table goes through as it follows
commands. -/
def marks (f : History → Nat) (commands : List Command) : Set Nat :=
  {n | ∃ stretch, stretch <+: commands ∧ f (after stretch).past = n}

/-- The present value of a count is among those it has had. -/
theorem mem_marks (f : History → Nat) (commands : List Command) :
    f (after commands).past ∈ marks f commands :=
  ⟨commands, List.prefix_rfl, rfl⟩

/-- One more command adds one more value, which may be an old one. -/
theorem marks_snoc (f : History → Nat) (commands : List Command) (command : Command) :
    marks f (commands ++ [command]) =
      insert (f (after (commands ++ [command])).past) (marks f commands) := by
  ext n
  constructor
  · rintro ⟨stretch, hstretch, hn⟩
    rcases List.prefix_concat_iff.1 hstretch with rfl | hold
    · exact .inl hn.symm
    · exact .inr ⟨stretch, hold, hn⟩
  · rintro (rfl | ⟨stretch, hstretch, hn⟩)
    · exact mem_marks f _
    · exact ⟨stretch, hstretch.trans (List.prefix_append _ _), hn⟩

/-- Before any command the count has only been what it is with no past. -/
theorem isGreatest_marks_nil (f : History → Nat) : IsGreatest (marks f []) (f []) := by
  refine ⟨mem_marks f [], ?_⟩
  rintro n ⟨stretch, hstretch, rfl⟩
  rw [List.prefix_nil.1 hstretch]
  exact le_rfl

/-- A count that no further command takes back is the highest at the
end. -/
theorem eq_of_isGreatest_marks {f : History → Nat} {commands : List Command} {high : Nat}
    (h : IsGreatest (marks f commands) high)
    (hmono : ∀ stretch, stretch <+: commands →
      f (after stretch).past ≤ f (after commands).past) :
    high = f (after commands).past := by
  refine h.unique ⟨mem_marks f commands, ?_⟩
  rintro n ⟨stretch, hstretch, rfl⟩
  exact hmono stretch hstretch

/-- At a table that is not started over, the counts only grow. -/
theorem counts_le {stretch commands : List Command} (hstretch : stretch <+: commands)
    (hreset : .resetTable ∉ commands) :
    History.rolls (after stretch).past ≤ History.rolls (after commands).past ∧
      History.ofKind .comeout (after stretch).past ≤
        History.ofKind .comeout (after commands).past := by
  obtain ⟨rest, rfl⟩ := hstretch
  induction rest using List.reverseRecOn with
  | nil =>
    rw [List.append_nil]
    exact ⟨le_rfl, le_rfl⟩
  | append_singleton rest command ih =>
    rw [← List.append_assoc, List.mem_append, List.mem_singleton, not_or] at hreset
    obtain ⟨hrolls, hhands⟩ :=
      counts_follow_add (counts_after (stretch ++ rest)) (Ne.symm hreset.2)
    rw [← List.append_assoc, after_snoc, hrolls, hhands]
    have hsofar := ih hreset.1
    omega

/-- At a table that is not started over, the rolls are all accepted
ones. -/
theorem rolls_after {commands : List Command} (hreset : .resetTable ∉ commands) :
    History.rolls (after commands).past = commands.countP Command.isAccepted := by
  induction commands using List.reverseRecOn with
  | nil => rfl
  | append_singleton commands command ih =>
    simp only [List.mem_append, List.mem_singleton, not_or] at hreset
    rw [after_snoc, (counts_follow_add (counts_after commands) (Ne.symm hreset.2)).1, ih hreset.1,
      List.countP_append, List.countP_singleton]

end WatchedTable

/-! ### The passes of a command -/

namespace Play

variable [BettingTable τ]

/-- A command moves the tracker first and then gives every derived
event its pass. -/
theorem follow_derive (p : Play τ) (command : Command) :
    (p.follow command).controller.tracker = (p.controller.tracker.derive command).1 ∧
      ∃ new, (p.follow command).turns = p.turns ++ new ∧
        new.map Turn.event = (p.controller.tracker.derive command).2 := by
  -- Passes do not touch the tracker.
  have hfold : ∀ (p : Play τ) (events : List Event),
      (events.foldl handle p).controller.tracker = p.controller.tracker ∧
        ∃ new, (events.foldl handle p).turns = p.turns ++ new ∧
          new.map Turn.event = events := by
    intro p events
    induction events generalizing p with
    | nil => exact ⟨rfl, [], by simp, rfl⟩
    | cons event events ih =>
      obtain ⟨htracker, new, hturns, hevents⟩ := ih (p.handle event)
      refine ⟨htracker, { before := p.controller, event } :: new, ?_, by simp [hevents]⟩
      rw [List.foldl_cons, hturns, turns_handle, List.append_assoc]
      rfl
  cases command with
  | roll total dice =>
    cases hroll : p.controller.tracker.roll? total dice with
    | none =>
      have hrefused : p.follow (.roll total dice) = p := by simp only [follow, hroll]
      rw [Tracker.derive_of_refused hroll, hrefused]
      exact ⟨rfl, [], by simp, rfl⟩
    | some result =>
      obtain ⟨next, events⟩ := result
      rw [Tracker.derive_of_accepted hroll]
      simp only [follow, hroll]
      exact hfold (p.withTracker next) events
  | resolve bet result payout => exact hfold p [p.controller.tracker.resolve bet result payout]
  | resetTable => exact ⟨rfl, [], (turns_reset p).trans (List.append_nil _).symm, rfl⟩

end Play

/-- Numbers that are all the same raise a maximum at most to that
number. -/
theorem foldl_max_of_forall_eq {numbers : List Nat} {n high : Nat}
    (hall : ∀ m ∈ numbers, m = n) (hnone : numbers = [] → n ≤ high) :
    numbers.foldl max high = max n high := by
  induction numbers generalizing high with
  | nil => exact (max_eq_right (hnone rfl)).symm
  | cons m rest ih =>
    rw [List.foldl_cons, hall m List.mem_cons_self,
      ih (fun k hk => hall k (List.mem_cons_of_mem _ hk)) fun _ => le_max_right high n]
    omega

namespace Recording

variable [BettingTable τ] {strategy : Strategy}

/-- The tracker of a recording is that of a table which followed the
commands, and the books hold the highest counts of that table. -/
structure Watched (r : Recording τ) (commands : List Command) : Prop where
  tracker : r.controller.tracker = (WatchedTable.after commands).tracker
  rolls : IsGreatest (WatchedTable.marks History.rolls commands) r.ledger.rolls
  hands : IsGreatest (WatchedTable.marks (History.ofKind .comeout) commands) r.ledger.hands

/-- The highest number in the books after a command, of rolls or of
hands. -/
theorem isGreatest_command {f : History → Nat} (hfresh : f [] = 0) {commands : List Command}
    {command : Command} {high : Nat} {numbers : List Nat}
    (hhigh : IsGreatest (WatchedTable.marks f commands) high)
    (hnumbers : ∀ n ∈ numbers, n = f (WatchedTable.after (commands ++ [command])).past)
    (hnone : numbers = [] →
      ((WatchedTable.after commands).tracker.derive command).2 = []) :
    IsGreatest (WatchedTable.marks f (commands ++ [command])) (numbers.foldl max high) := by
  rw [WatchedTable.marks_snoc, foldl_max_of_forall_eq hnumbers fun hnil => ?_]
  · exact hhigh.insert _
  · -- Without an event the count stays, or begins again.
    have hsofar := hhigh.2 (WatchedTable.mem_marks f commands)
    rw [WatchedTable.after_snoc]
    rcases WatchedTable.follow_of_derive_nil (WatchedTable.counts_after commands) (hnone hnil)
      with hstay | hfreshly
    · rw [hstay]
      exact hsofar
    · rw [hfreshly]
      show f [] ≤ high
      omega

/-- A command keeps the books in step with the table. All its events
carry the counts after it, so the maximum in the books moves at most
there. -/
theorem Watched.command {r : Recording τ} {commands : List Command} (h : r.Watched commands)
    (hsound : Sound strategy r) (command : Command) :
    (r.follow (.command command)).Watched (commands ++ [command]) := by
  have hcounts := WatchedTable.counts_after commands
  obtain ⟨htracker, new, hturns, hevents⟩ := r.toPlay.follow_derive command
  rw [h.tracker] at htracker hevents
  -- The new passes carry the counts of the table after the command.
  have hnew : ∀ t ∈ new,
      t.event.rollIndex = History.rolls (WatchedTable.after (commands ++ [command])).past ∧
        t.event.handId =
          History.ofKind .comeout (WatchedTable.after (commands ++ [command])).past := by
    intro t ht
    rw [WatchedTable.after_snoc]
    refine WatchedTable.counts_derive hcounts ?_
    rw [← hevents]
    exact List.mem_map_of_mem ht
  have hnone : new = [] → ((WatchedTable.after commands).tracker.derive command).2 = [] := by
    intro hnil
    rw [← hevents, hnil]
    rfl
  have hpasses : (r.follow (.command command)).passes = r.passes ++ new.map Turn.pass := by
    show (r.toPlay.follow command).turns.map Turn.pass = _
    rw [hturns, List.map_append]
    rfl
  have hbefore := Ledger.recounts_ofPasses r.passes
  have hafter := Ledger.recounts_ofPasses (r.follow (.command command)).passes
  rw [← hsound.ledger] at hbefore
  rw [← (hsound.command command).ledger, hpasses] at hafter
  constructor
  case tracker =>
    show (r.toPlay.follow command).controller.tracker = _
    rw [htracker, WatchedTable.after_snoc, WatchedTable.tracker_follow]
  case rolls =>
    rw [hafter.rolls, List.map_append, List.foldl_append, ← hbefore.rolls, List.map_map]
    refine isGreatest_command rfl h.rolls ?_ fun hnil => hnone (List.map_eq_nil_iff.1 hnil)
    intro n hn
    obtain ⟨t, ht, rfl⟩ := List.mem_map.1 hn
    exact (hnew t ht).1
  case hands =>
    rw [hafter.hands, List.map_append, List.foldl_append, ← hbefore.hands, List.map_map]
    refine isGreatest_command rfl h.hands ?_ fun hnil => hnone (List.map_eq_nil_iff.1 hnil)
    intro n hn
    obtain ⟨t, ht, rfl⟩ := List.mem_map.1 hn
    exact (hnew t ht).2

/-- The figures follow the table after all happenings, as long as no
event is handed over from outside, which could carry any number. -/
theorem watched_after {table : τ} {c : Controller τ} (hready : c.Ready strategy table)
    (happenings : List (Happening τ)) (hderived : ∀ event, .event event ∉ happenings) :
    (after c happenings).Watched (commandsOf happenings) := by
  induction happenings using List.reverseRecOn with
  | nil =>
    exact ⟨hready.tracker_eq, WatchedTable.isGreatest_marks_nil _,
      WatchedTable.isGreatest_marks_nil _⟩
  | append_singleton happenings happening ih =>
    have hsofar := ih fun event hevent => hderived event (List.mem_append_left _ hevent)
    rw [after_snoc, commandsOf_snoc]
    cases happening with
    | command command => exact hsofar.command (sound_after hready happenings) command
    | event event => exact absurd (by simp) (hderived event)
    | change change =>
      rw [show commandsOf [Happening.change change] = [] from rfl, List.append_nil]
      refine ⟨?_, hsofar.rolls, hsofar.hands⟩
      rw [← hsofar.tracker]
      cases change <;> rfl

/-- At a table that is not started over, the hands are the markers of
all passes. -/
theorem comeouts_after {table : τ} {c : Controller τ} (hready : c.Ready strategy table)
    (happenings : List (Happening τ)) (hderived : ∀ event, .event event ∉ happenings)
    (hreset : .resetTable ∉ commandsOf happenings) :
    History.ofKind .comeout (WatchedTable.after (commandsOf happenings)).past =
      (after c happenings).passes.countP fun pass => pass.event.kind = .comeout := by
  induction happenings using List.reverseRecOn with
  | nil => rfl
  | append_singleton happenings happening ih =>
    have hearlier : ∀ event, .event event ∉ happenings :=
      fun event hevent => hderived event (List.mem_append_left _ hevent)
    rw [commandsOf_snoc, List.mem_append, not_or] at hreset
    have hsofar := ih hearlier hreset.1
    have htracker := (watched_after hready happenings hearlier).tracker
    rw [after_snoc, commandsOf_snoc]
    cases happening with
    | command command =>
      -- Only a table that is started over forgets hands.
      have hopen : command ≠ .resetTable := by
        rintro rfl
        exact hreset.2 List.mem_cons_self
      obtain ⟨_, new, hturns, hevents⟩ := (after c happenings).toPlay.follow_derive command
      have hcount : (new.map Turn.pass).countP (fun pass => pass.event.kind = .comeout) =
          (new.map Turn.event).countP fun e => e.kind = .comeout := by
        rw [List.countP_map, List.countP_map]
        rfl
      show History.ofKind .comeout (WatchedTable.after (_ ++ [command])).past =
        (((after c happenings).toPlay.follow command).turns.map Turn.pass).countP _
      rw [WatchedTable.after_snoc, hturns, List.map_append, List.countP_append, hcount, hevents,
        htracker, (WatchedTable.counts_follow_add (WatchedTable.counts_after _) hopen).2, hsofar]
      rfl
    | event event => exact absurd (by simp) (hderived event)
    | change change =>
      rw [show commandsOf [Happening.change change] = [] from rfl, List.append_nil]
      exact hsofar

/-- Unless the table changes by itself, it is as the last pass has
left it. -/
theorem table_after (c : Controller τ) (happenings : List (Happening τ))
    (hchange : ∀ table, .change (.table table) ∉ happenings) :
    ∀ t, (after c happenings).turns.getLast? = some t →
      (after c happenings).controller.table = t.after.table := by
  refine List.foldlRecOn (motive := fun r : Recording τ =>
    ∀ t, r.turns.getLast? = some t → r.controller.table = t.after.table)
    happenings follow (fun t ht => by cases ht) fun r h happening hmem => ?_
  have hhandle : ∀ (p : Play τ) event t, (p.handle event).turns.getLast? = some t →
      (p.handle event).controller.table = t.after.table := by
    intro p event t ht
    rw [Play.turns_handle, List.getLast?_concat, Option.some.injEq] at ht
    rw [← ht]
    rfl
  cases happening with
  | command command =>
    refine Play.follow_induction (motive := fun p =>
      ∀ t, p.turns.getLast? = some t → p.controller.table = t.after.table) h
      (fun p event _ _ => hhandle p event) (fun _ _ hp => hp) (fun p hp => ?_) command
    rwa [Play.turns_reset]
  | event event => exact hhandle r.toPlay event
  | change change =>
    cases change with
    | table table => exact absurd hmem (hchange table)
    | verbs _ | trace _ | dropTrace => exact h

/-- What the closing figures are. The bankroll is that of the table
before the last pass, while the table itself is as the pass has left
it. The rolls and the hands are the highest counts that a table came
to between two times that it was started over, and the counts of the
whole run when it never was. -/
theorem closing_figures {table : τ} {c : Controller τ} (hready : c.Ready strategy table)
    (happenings : List (Happening τ)) {last : Turn τ}
    (hlast : (after c happenings).turns.getLast? = some last) :
    let r := after c happenings
    let commands := commandsOf happenings
    r.ledger.bankroll = BettingTable.bankroll last.before.table ∧
      ((∀ table, .change (.table table) ∉ happenings) → r.controller.table = last.after.table) ∧
      ((∀ event, .event event ∉ happenings) →
        IsGreatest (WatchedTable.marks History.rolls commands) r.ledger.rolls ∧
        IsGreatest (WatchedTable.marks (History.ofKind .comeout) commands) r.ledger.hands ∧
        (.resetTable ∉ commands →
          r.ledger.rolls = commands.countP Command.isAccepted ∧
          r.ledger.hands = r.passes.countP fun pass => pass.event.kind = .comeout)) := by
  intro r commands
  refine ⟨?_, fun hchange => table_after c happenings hchange last hlast, fun hderived => ?_⟩
  · -- The ledger is kept from the passes, and each has its snapshot from
    -- before.
    rw [(sound_after hready happenings).ledger, (Ledger.recounts_ofPasses _).bankroll, passes,
      List.getLast?_map, hlast]
    rfl
  · have hwatched := watched_after hready happenings hderived
    refine ⟨hwatched.rolls, hwatched.hands, fun hreset => ?_⟩
    constructor
    · rw [← WatchedTable.rolls_after hreset]
      exact WatchedTable.eq_of_isGreatest_marks hwatched.rolls fun stretch hstretch =>
        (WatchedTable.counts_le hstretch hreset).1
    · rw [← comeouts_after hready happenings hderived hreset]
      exact WatchedTable.eq_of_isGreatest_marks hwatched.hands fun stretch hstretch =>
        (WatchedTable.counts_le hstretch hreset).2

/-- A strategy that bets on the line as soon as a hand is over. -/
def lastGasp : Strategy :=
  let step : StepObject :=
    { action := some "press", bet := some "pass_line", amount := some (.ofNat 10), notes := none,
      mode := none, var := none, value := none }
  { table := { bubble := false, level := 10, oddsPolicy := none }
    vars := .empty
    modes := .ofList [("Main", .empty)]
    rules := [{
      name := none, id := none, event := some "seven_out", guard := none
      steps := [.object step], thenStep := none, scope := .roll, cooldown := 0, once := false }] }

/-- One hand of two rolls at each of two tables. -/
def twoTables : List (Happening PaperTable) :=
  [.command (.roll 6 none), .command (.roll 7 none), .command .resetTable,
    .command (.roll 6 none), .command (.roll 7 none)]

/-- At the end the table has 90 dollars left and the books say 100;
four rolls were accepted in two hands, and the books have two rolls
and one hand. -/
theorem run_lastGasp :
    ∃ c : Controller PaperTable, c.Ready lastGasp { bets := .empty, bankroll := 100 } ∧
      (after c twoTables).passes.length = 6 ∧
      (after c twoTables).ledger.bankroll = 100 ∧
      BettingTable.bankroll (after c twoTables).controller.table = 90 ∧
      (after c twoTables).ledger.rolls = 2 ∧
      (commandsOf twoTables).countP Command.isAccepted = 4 ∧
      (after c twoTables).ledger.hands = 1 ∧
      ((after c twoTables).passes.countP fun pass => pass.event.kind = .comeout) = 2 := by
  let seen := fun c : Controller PaperTable =>
    let r := after c twoTables
    (r.passes.length, r.ledger.bankroll, r.controller.table.bankroll, r.ledger.rolls,
      r.ledger.hands, r.passes.countP fun pass => pass.event.kind = .comeout)
  have hseen : (Controller.start lastGasp { bets := .empty, bankroll := 100 : PaperTable }
      ).toOption.map seen = some (6, 100, 90, 2, 1, 2) := by
    decide +kernel
  obtain ⟨c, hstart, hc⟩ := exists_ok_of_toOption hseen
  simp only [seen, Prod.mk.injEq] at hc
  obtain ⟨hlength, hbankroll, htable, hrolls, hhands, hmarkers⟩ := hc
  exact ⟨c, .of_start hstart, hlength, hbankroll, htable, hrolls, by decide, hhands, hmarkers⟩

/-- None of the three figures is that of the run. -/
theorem figures_lastGasp :
    ∃ c : Controller PaperTable, c.Ready lastGasp { bets := .empty, bankroll := 100 } ∧
      (after c twoTables).passes ≠ [] ∧
      (after c twoTables).ledger.bankroll ≠
        BettingTable.bankroll (after c twoTables).controller.table ∧
      (after c twoTables).ledger.rolls ≠ (commandsOf twoTables).countP Command.isAccepted ∧
      (after c twoTables).ledger.hands ≠
        (after c twoTables).passes.countP fun pass => pass.event.kind = .comeout := by
  obtain ⟨c, hready, hlength, hbankroll, htable, hrolls, haccepted, hhands, hmarkers⟩ :=
    run_lastGasp
  refine ⟨c, hready, ?_, ?_, ?_, ?_⟩
  · exact List.ne_nil_of_length_pos (by omega)
  · rw [hbankroll, htable]
    decide +kernel
  · rw [hrolls, haccepted]
    decide
  · rw [hhands, hmarkers]
    decide

/-- The rolls and the hands are those of either table, and the
bankroll is that before the last bet. -/
theorem closing_figures_lastGasp :
    ∃ (c : Controller PaperTable) (last : Turn PaperTable),
      c.Ready lastGasp { bets := .empty, bankroll := 100 } ∧
      (after c twoTables).turns.getLast? = some last ∧
      (∀ event, .event event ∉ twoTables) ∧ (∀ table, .change (.table table) ∉ twoTables) ∧
      (after c twoTables).ledger.bankroll = last.before.table.bankroll ∧
      (after c twoTables).controller.table = last.after.table ∧
      IsGreatest (WatchedTable.marks History.rolls (commandsOf twoTables))
        (after c twoTables).ledger.rolls ∧
      IsGreatest (WatchedTable.marks (History.ofKind .comeout) (commandsOf twoTables))
        (after c twoTables).ledger.hands := by
  obtain ⟨c, hready, hlength, _⟩ := run_lastGasp
  rw [passes, List.length_map] at hlength
  have hturns : (after c twoTables).turns ≠ [] := List.ne_nil_of_length_pos (by omega)
  have hlast := List.getLast?_eq_some_getLast hturns
  have hderived : ∀ event, .event event ∉ twoTables := by simp [twoTables]
  have hchange : ∀ table, .change (.table table) ∉ twoTables := by simp [twoTables]
  obtain ⟨hbankroll, htable, hfigures⟩ := closing_figures hready twoTables hlast
  obtain ⟨hrolls, hhands, _⟩ := hfigures hderived
  exact ⟨c, _, hready, hlast, hderived, hchange, hbankroll, htable hchange, hrolls, hhands⟩

end Recording

end CrapsStrategy
