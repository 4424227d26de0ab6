import CrapsStrategy.Proofs.Session.Closing
import CrapsStrategy.Proofs.Session.Settling

/-!
# `CrapsStrategy.Proofs.Session.Coherence`: the point in a snapshot

The point of an event is the one it is about, and that point may just
have been made or lost. A snapshot repairs this from the come-out flag
of the event. `Snapshot.Shows` says that the repair is right: the
snapshot has the point that is on at the table, and its other fields
agree with it.

Where the puck is follows from the commands alone, by the rules of the
game: `Puck.next` moves it on a total, `Puck.after` on all the
commands of a table. `Tracker.Follows` ties a tracker to such a puck.
The two flags that a tracker keeps beside its own puck are part of it:
a hand that is still to be opened and rolls since the point, which go
with the puck off and on. `Follows.settle` moves both on by one
thrown total, `Follows.derive` by one command, and
`Session.snapshots_coherent` is the run.
-/

set_option autoImplicit false

namespace CrapsStrategy

variable {τ : Type}

/-! ### The puck by the rules of the game -/

namespace Puck

/-- Where the puck goes on a total. With the puck off a point number
sets the point; a seven or the point itself takes it off again. -/
def next (puck : Puck) (total : Nat) : Puck :=
  match puck with
  | off => if isPoint total then on total else off
  | on point => if total = 7 ∨ total = point then off else on point

/-- Where the puck goes on a command. -/
def follow (puck : Puck) : Command → Puck
  | .roll total dice => if Tracker.accepts total dice then puck.next total else puck
  | .resolve _ _ _ => puck
  | .resetTable => off

/-- Where the puck of a table is after some commands. -/
def after (commands : List Command) : Puck :=
  commands.foldl follow off

/-- The puck moves command by command. -/
theorem after_snoc (commands : List Command) (command : Command) :
    after (commands ++ [command]) = (after commands).follow command := by
  simp [after]

/-- The puck is on a point number if it is on. -/
def Proper (puck : Puck) : Prop :=
  ∀ point, puck = on point → isPoint point = true

/-- A puck that is off is on no number at all. -/
theorem proper_off : off.Proper := by
  intro point h
  cases h

/-- The rules of the game set a puck on point numbers only. -/
theorem Proper.next {puck : Puck} (h : puck.Proper) (total : Nat) : (puck.next total).Proper := by
  intro point hnext
  cases puck with
  | off =>
    by_cases hpoint : isPoint total = true
    · rw [Puck.next, if_pos hpoint] at hnext
      cases hnext
      exact hpoint
    · rw [Puck.next, if_neg hpoint] at hnext
      cases hnext
  | on old =>
    rw [Puck.next] at hnext
    split at hnext
    · cases hnext
    · exact h point hnext

/-- Every command keeps a puck on a point number or takes it off. -/
theorem Proper.follow {puck : Puck} (h : puck.Proper) (command : Command) :
    (puck.follow command).Proper := by
  cases command with
  | roll total dice =>
    rw [Puck.follow]
    split
    · exact h.next total
    · exact h
  | resolve bet result payout => exact h
  | resetTable => exact proper_off

/-- The puck of any table is off or on a point number. -/
theorem proper_after (commands : List Command) : (after commands).Proper :=
  List.foldlRecOn (motive := Proper) commands Puck.follow proper_off
    fun _ h command _ => h.follow command

end Puck

/-! ### Snapshots of events -/

/-- An event agrees with the puck of its table. Its point is only
asked for while the puck is on. -/
structure Event.Reports (e : Event) (puck : Puck) : Prop where
  onComeout : e.onComeout = true ↔ puck = .off
  point : ∀ point, puck = .on point → e.point = some point
  rollsSincePoint : puck = .off → e.rollsSincePoint = 0
  resolution : e.resolution.isSome = true ↔ e.kind = .betResolved

/-- A snapshot of an event shows the table with the puck where it
is. -/
structure Snapshot.Shows (s : Snapshot) (e : Event) (puck : Puck) : Prop where
  point : s.point = puck.point?
  noPoint : s.point = none ↔ s.onComeout = true
  isPoint : ∀ point, s.point = some point → CrapsStrategy.isPoint point = true
  rollsSincePoint : s.onComeout = true → s.rollsSincePoint = 0
  resolvedBet : s.resolvedBet.isSome = true ↔ e.kind = .betResolved
  resolvedResult : s.resolvedResult.isSome = true ↔ e.kind = .betResolved

/-- Any controller makes such a snapshot of an event that agrees with
the puck. -/
theorem Event.Reports.shows [BettingTable τ] {e : Event} {puck : Puck} (h : e.Reports puck)
    (hproper : puck.Proper) (c : Controller τ) : (c.snapshot e).Shows e puck := by
  have hpoint : (c.snapshot e).point = puck.point? := by
    -- On the come-out the snapshot leaves the point of the event out.
    show (if e.onComeout = true then none else e.point) = puck.point?
    cases puck with
    | off => rw [if_pos (h.onComeout.2 rfl)]; rfl
    | on point =>
      have hflag : e.onComeout ≠ true := fun hoff => by cases h.onComeout.1 hoff
      rw [if_neg hflag, h.point point rfl]
      rfl
  have hresolved : (c.snapshot e).resolvedBet.isSome = e.resolution.isSome ∧
      (c.snapshot e).resolvedResult.isSome = e.resolution.isSome :=
    ⟨Option.isSome_map, Option.isSome_map⟩
  constructor
  case point => exact hpoint
  case noPoint =>
    rw [hpoint]
    refine Iff.trans ?_ h.onComeout.symm
    cases puck <;> simp [Puck.point?]
  case isPoint =>
    intro point hsome
    rw [hpoint] at hsome
    cases puck with
    | off => cases hsome
    | on old =>
      cases hsome
      exact hproper point rfl
  case rollsSincePoint => exact fun hoff => h.rollsSincePoint (h.onComeout.1 hoff)
  case resolvedBet => rw [hresolved.1]; exact h.resolution
  case resolvedResult => rw [hresolved.2]; exact h.resolution

/-! ### Trackers -/

namespace Tracker

/-- A tracker has the puck where the table has it. With a point on, no
hand is still to be opened; without one, no rolls are counted since
it. -/
structure Follows (t : Tracker) (puck : Puck) : Prop where
  eq : t.puck = puck
  pending : t.comeoutPending = true → puck = .off
  rollsSincePoint : puck = .off → t.rollsSincePoint = 0

/-- A fresh tracker has the puck off, and the first hand is still to be
opened. -/
theorem follows_fresh : fresh.Follows .off :=
  ⟨rfl, fun _ => rfl, fun _ => rfl⟩

variable {t : Tracker} {puck : Puck}

/-- With the hand open there is nothing to say of the first flag. -/
theorem follows_of_open (hopen : t.comeoutPending = false) (heq : t.puck = puck)
    (hrolls : puck = .off → t.rollsSincePoint = 0) : t.Follows puck where
  eq := heq
  pending hpending := by
    rw [hopen] at hpending
    cases hpending
  rollsSincePoint := hrolls

/-- The event of a tracker agrees with the puck when it names the
point that is on, if one is. -/
theorem Follows.reports (h : t.Follows puck) {kind : EventKind} {total point : Option Nat}
    {resolution : Option Resolution} (hpoint : puck = .off ∨ point = puck.point?)
    (hresolution : resolution.isSome = true ↔ kind = .betResolved) :
    (t.event kind total point resolution).Reports puck where
  onComeout := by
    show (t.puck == .off) = true ↔ puck = .off
    rw [h.eq, beq_iff_eq]
  point := by
    rintro p rfl
    exact hpoint.resolve_left fun hoff => by cases hoff
  rollsSincePoint := h.rollsSincePoint
  resolution := hresolution

/-! ### One command -/

/-- The marker of a hand comes with the puck off, and opening the hand
leaves it there. -/
theorem Follows.openHand (h : t.Follows puck) :
    t.openHand.1.Follows puck ∧ t.openHand.1.comeoutPending = false ∧
      ∀ e ∈ t.openHand.2, e.kind = .comeout ∧ e.Reports puck := by
  unfold Tracker.openHand
  dsimp only
  cases hpending : t.comeoutPending with
  | true =>
    rw [if_pos rfl]
    have hopened : Follows
        { t with
          rollIndex := t.rollIndex + 1, comeoutPending := false, handId := t.handId + 1,
          rollInHand := 0 } puck :=
      follows_of_open rfl h.eq h.rollsSincePoint
    refine ⟨hopened, rfl, fun e he => ?_⟩
    rw [List.mem_singleton.1 he]
    exact ⟨rfl, hopened.reports (.inl (h.pending hpending)) (by simp)⟩
  | false =>
    rw [if_neg Bool.false_ne_true]
    exact ⟨follows_of_open rfl h.eq h.rollsSincePoint, rfl, fun e he => by cases he⟩

/-- A tracker that follows the puck with its event, as a settled roll
gives them. -/
def Settled (result : Tracker × Event) (puck : Puck) : Prop :=
  result.1.Follows puck ∧ result.2.kind ≠ .comeout ∧ result.2.Reports puck

/-- A roll may end with such an event: its tracker follows the puck, and
the event names the point that is on. -/
theorem Follows.settled (h : t.Follows puck) {kind : EventKind} {total point : Option Nat}
    {resolution : Option Resolution} (hkind : kind ≠ .comeout)
    (hpoint : puck = .off ∨ point = puck.point?)
    (hresolution : resolution.isSome = true ↔ kind = .betResolved) :
    Settled (t, t.event kind total point resolution) puck :=
  ⟨h, hkind, h.reports hpoint hresolution⟩

/-- A thrown total moves the puck by the rules, and its event agrees
with the puck after it. -/
theorem Follows.settle (h : t.Follows puck) (hopen : t.comeoutPending = false) (total : Nat) :
    Settled (t.settle total) (puck.next total) := by
  unfold Tracker.settle
  rw [h.eq]
  cases puck with
  | off =>
    dsimp only
    by_cases hpoint : isPoint total = true
    · rw [if_pos hpoint, Puck.next, if_pos hpoint]
      refine Follows.settled ?_ (by decide) (.inr rfl) (by simp)
      exact follows_of_open hopen rfl fun _ => rfl
    · -- The line is settled, and the puck stays off.
      rw [if_neg hpoint, Puck.next, if_neg hpoint]
      exact h.settled (by decide) (.inl rfl) (by simp)
  | on point =>
    dsimp only
    by_cases hseven : total = 7
    · -- The point is lost, and the next roll opens a hand.
      have hlost : (Puck.on point).next total = .off := if_pos (.inl hseven)
      rw [if_pos hseven, hlost]
      refine Follows.settled ?_ (by decide) (.inl rfl) (by simp)
      exact ⟨rfl, fun _ => rfl, fun _ => rfl⟩
    · by_cases hmade : total = point
      · have hoff : (Puck.on point).next total = .off := if_pos (.inr hmade)
        rw [if_neg hseven, if_pos hmade, hoff]
        refine Follows.settled ?_ (by decide) (.inl rfl) (by simp)
        exact follows_of_open hopen rfl fun _ => rfl
      · -- The point stays on, and the event names it.
        have hstays : (Puck.on point).next total = .on point :=
          if_neg (not_or.2 ⟨hseven, hmade⟩)
        rw [if_neg hseven, if_neg hmade, hstays]
        refine Follows.settled ?_ (by decide) (.inr rfl) (by simp)
        exact follows_of_open hopen rfl fun hoff => by cases hoff

/-- A command moves a tracker with the puck. Its events agree with the
puck after it, but for the marker of a hand, which comes before its
roll. -/
theorem Follows.derive (h : t.Follows puck) (command : Command) :
    (t.derive command).1.Follows (puck.follow command) ∧
      ∀ e ∈ (t.derive command).2,
        e.Reports (if e.kind = .comeout then puck else puck.follow command) := by
  cases command with
  | roll total dice =>
    cases haccepts : accepts total dice with
    | true =>
      obtain ⟨hopened, hopen, hmarker⟩ := h.openHand
      -- The dice on the table are no part of what is followed.
      have hthrown : (t.openHand.1.throwDice total dice).Follows puck :=
        ⟨hopened.eq, hopened.pending, hopened.rollsSincePoint⟩
      obtain ⟨hnext, hmain, hreports⟩ := hthrown.settle hopen total
      have hroll : t.roll? total dice = some
          (((t.openHand.1.throwDice total dice).settle total).1,
            t.openHand.2 ++ [((t.openHand.1.throwDice total dice).settle total).2]) := by
        rw [roll?, if_pos haccepts]
      have hfollow : puck.follow (.roll total dice) = puck.next total := if_pos haccepts
      rw [derive_of_accepted hroll, hfollow]
      refine ⟨hnext, fun e he => ?_⟩
      rcases List.mem_append.1 he with hold | hnew
      · rw [if_pos (hmarker e hold).1]
        exact (hmarker e hold).2
      · rw [List.mem_singleton.1 hnew, if_neg hmain]
        exact hreports
    | false =>
      have hrefused : t.roll? total dice = none := by
        rw [roll?, if_neg (by rw [haccepts]; decide)]
      have hfollow : puck.follow (.roll total dice) = puck := if_neg (by rw [haccepts]; decide)
      rw [derive_of_refused hrefused, hfollow]
      exact ⟨h, fun e he => by cases he⟩
  | resolve bet result payout =>
    refine ⟨h, fun e he => ?_⟩
    rw [List.mem_singleton.1 he, if_neg (by simp [resolve, event])]
    exact h.reports (.inr (by rw [h.eq])) (by simp)
  | resetTable => exact ⟨follows_fresh, fun e he => by cases he⟩

end Tracker

/-! ### Runs -/

namespace Session

open Controller (coldHand withLine)

variable [BettingTable τ] {strategy : Strategy} {table : τ} {s : Session τ}

/-- The tracker of a session has the puck where the commands have
moved it. -/
theorem follows_run (hready : s.controller.Ready strategy table) (commands : List Command) :
    (s.run commands).1.controller.tracker.Follows (Puck.after commands) := by
  rw [(Play.run_eq_after s commands).1]
  induction commands using List.reverseRecOn with
  | nil =>
    show s.controller.tracker.Follows .off
    rw [hready.tracker_eq]
    exact Tracker.follows_fresh
  | append_singleton commands command ih =>
    have htracker := ((Play.after s.controller commands).follow_derive command).1
    rw [Play.after_snoc, Puck.after_snoc, htracker]
    exact (ih.derive command).1

/-- The events of a command, each with its pass. -/
theorem run_snoc_events (s : Session τ) (commands : List Command) (command : Command) :
    ∃ new, (s.run (commands ++ [command])).2 = (s.run commands).2 ++ new ∧
      new.map Pass.event = ((s.run commands).1.controller.tracker.derive command).2 ∧
      ∀ pass ∈ new, ∃ c : Controller τ, pass.snapshot = c.snapshot pass.event := by
  obtain ⟨hcontroller, hpasses⟩ := Play.run_eq_after s commands
  obtain ⟨_, new, hturns, hevents⟩ := (Play.after s.controller commands).follow_derive command
  refine ⟨new.map Turn.pass, ?_, ?_, fun pass hpass => ?_⟩
  · rw [(Play.run_eq_after s _).2, hpasses, Play.after_snoc, hturns, List.map_append]
  · rw [hcontroller, ← hevents, List.map_map]
    rfl
  · obtain ⟨t, _, rfl⟩ := List.mem_map.1 hpass
    exact ⟨t.before, rfl⟩

/-- At any point of a session the tracker has the puck where the rules
of the game say. Every event of the next command then gets its pass,
and the snapshot of the pass, like any other snapshot of the event,
shows the table with the puck where it is once the event has
happened. -/
theorem snapshots_coherent (hready : s.controller.Ready strategy table)
    (commands : List Command) (command : Command) :
    (s.run commands).1.controller.tracker.puck = Puck.after commands ∧
      ∃ new, (s.run (commands ++ [command])).2 = (s.run commands).2 ++ new ∧
        new.map Pass.event = ((s.run commands).1.controller.tracker.derive command).2 ∧
        ∀ pass ∈ new,
          let puck :=
            if pass.event.kind = .comeout then Puck.after commands
            else Puck.after (commands ++ [command])
          pass.snapshot.Shows pass.event puck ∧
            ∀ view : Controller τ, (view.snapshot pass.event).Shows pass.event puck := by
  have hfollows := follows_run hready commands
  obtain ⟨new, hpasses, hevents, hsnapshots⟩ := run_snoc_events s commands command
  refine ⟨hfollows.eq, new, hpasses, hevents, fun pass hpass => ?_⟩
  have hevent : pass.event ∈ ((s.run commands).1.controller.tracker.derive command).2 := by
    rw [← hevents]
    exact List.mem_map_of_mem hpass
  have hreports := (hfollows.derive command).2 pass.event hevent
  rw [← Puck.after_snoc] at hreports
  have hproper : (if pass.event.kind = .comeout then Puck.after commands
      else Puck.after (commands ++ [command])).Proper := by
    split <;> exact Puck.proper_after _
  obtain ⟨c, hsnapshot⟩ := hsnapshots pass hpass
  exact ⟨hsnapshot ▸ hreports.shows hproper c, fun view => hreports.shows hproper view⟩

/-- A point, and a bet on another number that is settled elsewhere. -/
def sixOn : List Command :=
  [.roll 6 none, .resolve "place_8" "win" none]

/-- The seven loses the point: its event still names the six, and its
snapshot has no point. -/
theorem snapshots_coherent_sixOn :
    ∃ s : Session PaperTable, s.controller.Ready coldHand withLine ∧
      ((s.run (sixOn ++ [.roll 7 none])).2.map fun pass =>
        (pass.event.kind, pass.event.point, pass.snapshot.point)) =
          [(.comeout, none, none), (.pointEstablished, some 6, some 6),
            (.betResolved, some 6, some 6), (.sevenOut, some 6, none)] ∧
      (s.run sixOn).1.controller.tracker.puck = .on 6 ∧
      ∃ new, (s.run (sixOn ++ [.roll 7 none])).2 = (s.run sixOn).2 ++ new ∧
        ∀ pass ∈ new, pass.snapshot.Shows pass.event
          (if pass.event.kind = .comeout then .on 6 else .off) := by
  have hseen : (Controller.start coldHand withLine).toOption.map (fun c =>
      (({ controller := c, ledger := .empty } : Session PaperTable).run
        (sixOn ++ [.roll 7 none])).2.map fun pass =>
          (pass.event.kind, pass.event.point, pass.snapshot.point)) =
      some [(.comeout, none, none), (.pointEstablished, some 6, some 6),
        (.betResolved, some 6, some 6), (.sevenOut, some 6, none)] := by
    decide +kernel
  obtain ⟨c, hstart, hpoints⟩ := exists_ok_of_toOption hseen
  have hready : c.Ready coldHand withLine := .of_start hstart
  obtain ⟨hpuck, new, hnew, _, hshows⟩ :=
    snapshots_coherent (s := { controller := c, ledger := .empty }) hready sixOn (.roll 7 none)
  have hon : Puck.after sixOn = .on 6 := rfl
  have hoff : Puck.after (sixOn ++ [.roll 7 none]) = .off := rfl
  rw [hon, hoff] at hshows
  exact ⟨_, hready, hpoints, hpuck.trans hon, new, hnew,
    fun pass hpass => (hshows pass hpass).1⟩

end Session

end CrapsStrategy
