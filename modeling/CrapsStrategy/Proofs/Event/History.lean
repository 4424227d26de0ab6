import CrapsStrategy.Session.Run

/-!
# `CrapsStrategy.Proofs.Event.History`: counters read off the history

A tracker keeps nine fields that its branches change at different
moments. `History` has one function for each of them, a count over
the events that the rolls of a table have led to since it was opened.
`emitted_recounts` says that every event ever emitted carries exactly
these counts, and which events a roll leads to.

`Tracker.Tallies` is the invariant: the fields of the tracker, but
for the roll index and the pending hand, are the counts over the
history. It holds in the middle of a roll too, after the marker of a
hand (`Tallies.marker`), where the roll index is already one ahead.
`Tracker.Advances` says once what a settled roll does to the fields,
`Tallies.advance` closes the roll with it, and
`WatchedTable.counts_after` is the induction over the commands of a
table.

The counters are natural numbers here and have no limit to reach.
-/

set_option autoImplicit false

namespace CrapsStrategy

/-! ### Counts over a history -/

/-- The events of the rolls since a table was opened, the latest
first. -/
abbrev History := List Event

namespace History

/-- The events of a kind. -/
def ofKind (kind : EventKind) (past : History) : Nat :=
  past.countP fun e => e.kind = kind

/-- The events of rolls proper, without the markers of hands. -/
def mains (past : History) : List Event :=
  past.filter fun e => e.kind ≠ .comeout

/-- The accepted rolls. -/
def rolls (past : History) : Nat :=
  (mains past).length

/-- The rolls since the latest marker. -/
def rollsInHand (past : History) : Nat :=
  (past.takeWhile fun e => e.kind ≠ .comeout).length

/-- Whether the next roll starts a hand: it is the first of all, or
the roll before it was a seven-out. -/
def startsHand (past : History) : Bool :=
  (mains past).head?.all fun e => e.kind = .sevenOut

/-- Whether an event sets, makes or loses a point. -/
def movesPuck (e : Event) : Bool :=
  e.kind = .pointEstablished || e.kind = .pointMade || e.kind = .sevenOut

/-- Whether a point is on: the latest event that moved the puck set
one. -/
def pointOn (past : History) : Bool :=
  (past.find? movesPuck).any fun e => e.kind = .pointEstablished

/-- The plain rolls since the point was set, zero when no point is
on. -/
def rollsSincePoint (past : History) : Nat :=
  if pointOn past then
    ofKind .roll (past.takeWhile fun e => e.kind ≠ .pointEstablished)
  else 0

/-- The events right after which another one came, in pairs of the
later and the earlier. -/
def neighbours (events : List Event) : List (Event × Event) :=
  events.zip events.tail

/-- The seven-outs on the roll after the one that set the point. -/
def pointSevenOuts (past : History) : Nat :=
  (neighbours (mains past)).countP fun (later, earlier) =>
    later.kind = .sevenOut ∧ earlier.kind = .pointEstablished

/-! ### One more event -/

variable {e : Event} {past : History}

/-- One more event counts for its own kind. -/
@[simp]
theorem ofKind_cons (kind : EventKind) (e : Event) (past : History) :
    ofKind kind (e :: past) = ofKind kind past + if e.kind = kind then 1 else 0 := by
  simp [ofKind, List.countP_cons]

/-- The marker of a hand is no roll of its own. -/
theorem mains_cons_marker (h : e.kind = .comeout) : mains (e :: past) = mains past := by
  simp [mains, h]

/-- An event that is no marker is that of a roll proper. -/
theorem mains_cons_main (h : e.kind ≠ .comeout) : mains (e :: past) = e :: mains past := by
  simp [mains, h]

/-- A marker does not count as a roll. -/
theorem rolls_cons_marker (h : e.kind = .comeout) : rolls (e :: past) = rolls past := by
  rw [rolls, mains_cons_marker h, rolls]

/-- Any other event counts as one. -/
theorem rolls_cons_main (h : e.kind ≠ .comeout) : rolls (e :: past) = rolls past + 1 := by
  rw [rolls, mains_cons_main h, List.length_cons, rolls]

/-- A marker starts the count of its hand at zero. -/
theorem rollsInHand_cons_marker (h : e.kind = .comeout) : rollsInHand (e :: past) = 0 := by
  simp [rollsInHand, h]

/-- Any other event counts for the hand that goes on. -/
theorem rollsInHand_cons_main (h : e.kind ≠ .comeout) :
    rollsInHand (e :: past) = rollsInHand past + 1 := by
  simp [rollsInHand, h]

/-- After a roll the next one starts a hand only if that roll was a
seven-out. -/
theorem startsHand_cons_main (h : e.kind ≠ .comeout) :
    startsHand (e :: past) = decide (e.kind = .sevenOut) := by
  simp [startsHand, mains_cons_main h]

/-- An event that moves the puck decides alone whether a point is
on. -/
theorem pointOn_cons_moves (h : movesPuck e = true) :
    pointOn (e :: past) = decide (e.kind = .pointEstablished) := by
  simp [pointOn, h]

/-- An event that does not move the puck leaves it where it is. -/
theorem pointOn_cons_of_not_moves (h : movesPuck e = false) :
    pointOn (e :: past) = pointOn past := by
  simp [pointOn, h]

/-- Without a point there are no rolls since one. -/
theorem rollsSincePoint_of_off (h : pointOn past = false) : rollsSincePoint past = 0 := by
  simp [rollsSincePoint, h]

/-- The roll that sets the point is not among the rolls since. -/
theorem rollsSincePoint_cons_established (h : e.kind = .pointEstablished) :
    rollsSincePoint (e :: past) = 0 := by
  simp [rollsSincePoint, h, ofKind]

/-- A plain roll with a point on adds to the rolls since the point. -/
theorem rollsSincePoint_cons_roll (h : e.kind = .roll) (hon : pointOn past = true) :
    rollsSincePoint (e :: past) = rollsSincePoint past + 1 := by
  have hon' : pointOn (e :: past) = true := by
    rw [pointOn_cons_of_not_moves (by simp [movesPuck, h]), hon]
  simp [rollsSincePoint, hon, hon', h]

/-- A marker or a settled line changes nothing about the rolls since
the point. -/
theorem rollsSincePoint_cons_still (h : movesPuck e = false) (hroll : e.kind ≠ .roll) :
    rollsSincePoint (e :: past) = rollsSincePoint past := by
  have hkind : e.kind ≠ .pointEstablished := by
    intro hkind
    simp [movesPuck, hkind] at h
  simp [rollsSincePoint, pointOn_cons_of_not_moves h, hkind, hroll]

/-- A marker stands between two hands and does not part a seven-out from
the roll that set its point. -/
theorem pointSevenOuts_cons_marker (h : e.kind = .comeout) :
    pointSevenOuts (e :: past) = pointSevenOuts past := by
  rw [pointSevenOuts, mains_cons_marker h, pointSevenOuts]

/-- One more roll adds a point-seven-out when it loses a point that
the roll before it set. -/
theorem pointSevenOuts_cons_main (h : e.kind ≠ .comeout) :
    pointSevenOuts (e :: past) = pointSevenOuts past +
      if e.kind = .sevenOut ∧
        ((mains past).head?.any fun e => e.kind = .pointEstablished) = true
      then 1 else 0 := by
  rw [pointSevenOuts, mains_cons_main h, pointSevenOuts]
  cases mains past with
  | nil => simp [neighbours]
  | cons last older => simp [neighbours, List.countP_cons]

end History

/-- An event carries the counts over a history. A marker counts the
roll that it precedes. -/
structure Event.Recounts (e : Event) (past : History) : Prop where
  rollIndex : e.rollIndex = History.rolls past + if e.kind = .comeout then 1 else 0
  handId : e.handId = History.ofKind .comeout past
  rollInHand : e.rollInHand = History.rollsInHand past
  rollsSincePoint : e.rollsSincePoint = History.rollsSincePoint past
  pointsEstablished :
    e.counters.pointsEstablished = History.ofKind .pointEstablished past
  pointsMade : e.counters.pointsMade = History.ofKind .pointMade past
  sevenOuts : e.counters.sevenOuts = History.ofKind .sevenOut past
  pointSevenOuts : e.counters.pointSevenOuts = History.pointSevenOuts past
  onComeout : e.onComeout = !History.pointOn past
  /-- Every point that was set was made or lost, or is still on. -/
  balance : e.counters.pointsEstablished =
    e.counters.pointsMade + e.counters.sevenOuts + if e.onComeout then 0 else 1

/-- What a roll leads to after a history: one event of its own, and a
marker in front of it exactly when it starts a hand. Each event
carries the counts over the history that ends with it. -/
inductive RollEvents (past : History) : List Event → Prop
  | opening (marker main : Event) (hstarts : History.startsHand past = true)
      (hmarker : marker.kind = .comeout) (hmain : main.kind ≠ .comeout)
      (hfirst : marker.Recounts (marker :: past))
      (hsecond : main.Recounts (main :: marker :: past)) : RollEvents past [marker, main]
  | plain (main : Event) (hgoes : History.startsHand past = false)
      (hmain : main.kind ≠ .comeout) (hrecounts : main.Recounts (main :: past)) :
      RollEvents past [main]

/-- A roll that can happen: a total of two dice, and dice that show it
if they are known. -/
def RollHappens (total : Nat) (dice : Option (Nat × Nat)) : Prop :=
  2 ≤ total ∧ total ≤ 12 ∧ ∀ a b, dice = some (a, b) →
    1 ≤ a ∧ a ≤ 6 ∧ 1 ≤ b ∧ b ≤ 6 ∧ a + b = total

/-- A table with the history of its rolls. -/
structure WatchedTable where
  tracker : Tracker
  past : History

namespace WatchedTable

/-- A table that has just been opened. -/
def fresh : WatchedTable :=
  { tracker := .fresh, past := [] }

/-- A table after a command. Only an accepted roll adds to the
history, and opening the table anew ends it. -/
def follow (w : WatchedTable) : Command → WatchedTable
  | .roll total dice =>
    match w.tracker.roll? total dice with
    | some (tracker, events) => { tracker, past := events.reverse ++ w.past }
    | none => w
  | .resolve _ _ _ => w
  | .resetTable => fresh

/-- A table after some commands. -/
def after (commands : List Command) : WatchedTable :=
  commands.foldl follow fresh

end WatchedTable

namespace Tracker

/-! ### The invariant -/

/-- The fields of a tracker as counts over a history, but for the roll
index and the pending hand. While a point is on, the latest roll set
it or was a plain one. -/
structure Tallies (t : Tracker) (past : History) : Prop where
  handId : t.handId = History.ofKind .comeout past
  rollInHand : t.rollInHand = History.rollsInHand past
  rollsSincePoint : t.rollsSincePoint = History.rollsSincePoint past
  pointsEstablished :
    t.counters.pointsEstablished = History.ofKind .pointEstablished past
  pointsMade : t.counters.pointsMade = History.ofKind .pointMade past
  sevenOuts : t.counters.sevenOuts = History.ofKind .sevenOut past
  pointSevenOuts : t.counters.pointSevenOuts = History.pointSevenOuts past
  onComeout : t.onComeout = !History.pointOn past
  balance : t.counters.pointsEstablished =
    t.counters.pointsMade + t.counters.sevenOuts + if t.onComeout then 0 else 1
  sincePoint : History.pointOn past = true →
    (History.rollsSincePoint past = 0 ↔
      (History.mains past).head?.any fun e => e.kind = .pointEstablished)

/-- The invariant between two commands. -/
structure Counts (t : Tracker) (past : History) : Prop extends Tallies t past where
  rollIndex : t.rollIndex = History.rolls past
  pending : t.comeoutPending = History.startsHand past

/-- A fresh table has seen nothing. -/
theorem counts_fresh : Counts fresh [] where
  handId := rfl
  rollInHand := rfl
  rollsSincePoint := rfl
  pointsEstablished := rfl
  pointsMade := rfl
  sevenOuts := rfl
  pointSevenOuts := rfl
  onComeout := rfl
  balance := rfl
  sincePoint := by simp [History.pointOn]
  rollIndex := rfl
  pending := rfl

/-- A point is on in the history when the tracker has one. -/
theorem Tallies.pointOn_eq {t : Tracker} {past : History} (h : Tallies t past) :
    History.pointOn past = !t.onComeout := by
  rw [h.onComeout, Bool.not_not]

/-- The event of a tracker carries the counts of the tracker. -/
theorem Tallies.recounts {t : Tracker} {past : History} (h : Tallies t past) (kind : EventKind)
    (total point : Option Nat) (resolution : Option Resolution)
    (hindex : t.rollIndex = History.rolls past + if kind = .comeout then 1 else 0) :
    (t.event kind total point resolution).Recounts past where
  rollIndex := hindex
  handId := h.handId
  rollInHand := h.rollInHand
  rollsSincePoint := h.rollsSincePoint
  pointsEstablished := h.pointsEstablished
  pointsMade := h.pointsMade
  sevenOuts := h.sevenOuts
  pointSevenOuts := h.pointSevenOuts
  onComeout := h.onComeout
  balance := h.balance

/-! ### One roll -/

/-- The marker of a hand keeps the tallies; the roll that it precedes
is counted already. -/
theorem Tallies.marker {t : Tracker} {past : History} {e : Event} (h : Tallies t past)
    (hkind : e.kind = .comeout) (rollIndex : Nat) (comeoutPending : Bool) :
    Tallies { t with rollIndex, comeoutPending, handId := t.handId + 1, rollInHand := 0 }
      (e :: past) := by
  have hstill : History.movesPuck e = false := by simp [History.movesPuck, hkind]
  have hon : History.pointOn (e :: past) = History.pointOn past :=
    History.pointOn_cons_of_not_moves hstill
  have hsince : History.rollsSincePoint (e :: past) = History.rollsSincePoint past :=
    History.rollsSincePoint_cons_still hstill (by simp [hkind])
  constructor
  case handId => simp [h.handId, hkind]
  case rollInHand => exact (History.rollsInHand_cons_marker hkind).symm
  case rollsSincePoint => exact h.rollsSincePoint.trans hsince.symm
  case pointsEstablished => simp [h.pointsEstablished, hkind]
  case pointsMade => simp [h.pointsMade, hkind]
  case sevenOuts => simp [h.sevenOuts, hkind]
  case pointSevenOuts =>
    exact h.pointSevenOuts.trans (History.pointSevenOuts_cons_marker hkind).symm
  case onComeout => exact h.onComeout.trans (by rw [hon])
  case balance => exact h.balance
  case sincePoint =>
    rw [hon, hsince, History.mains_cons_marker hkind]
    exact h.sincePoint

/-- What a roll whose event is of some kind does to the fields of a
tracker. -/
structure Advances (t : Tracker) (kind : EventKind) (next : Tracker) : Prop where
  proper : kind ≠ .comeout
  before : t.onComeout = decide (kind = .pointEstablished ∨ kind = .betResolved)
  onComeout : next.onComeout = decide (kind ≠ .pointEstablished ∧ kind ≠ .roll)
  rollIndex : next.rollIndex = t.rollIndex
  handId : next.handId = t.handId
  rollInHand : next.rollInHand = t.rollInHand + 1
  rollsSincePoint : next.rollsSincePoint =
    if kind = .roll then t.rollsSincePoint + 1
    else if kind = .betResolved then t.rollsSincePoint else 0
  pointsEstablished : next.counters.pointsEstablished =
    t.counters.pointsEstablished + if kind = .pointEstablished then 1 else 0
  pointsMade : next.counters.pointsMade =
    t.counters.pointsMade + if kind = .pointMade then 1 else 0
  sevenOuts : next.counters.sevenOuts =
    t.counters.sevenOuts + if kind = .sevenOut then 1 else 0
  pointSevenOuts : next.counters.pointSevenOuts = t.counters.pointSevenOuts +
    if kind = .sevenOut ∧ t.rollsSincePoint = 0 then 1 else 0
  pending : next.comeoutPending = (t.comeoutPending || decide (kind = .sevenOut))

/-- A settled roll advances the tracker by the kind of its event, and
the event is that of the tracker after it. -/
theorem settle_advances (t : Tracker) (total : Nat) (dice : Option (Nat × Nat)) :
    ∃ kind point resolution next, Advances t kind next ∧
      (t.throwDice total dice).settle total =
        (next, next.event kind (some total) point resolution) := by
  have hthrown : (t.throwDice total dice).puck = t.puck := rfl
  unfold settle
  rw [hthrown]
  -- One way to go for each kind of event, as the puck and the total say.
  cases hpuck : t.puck with
  | off =>
    dsimp only
    by_cases hpoint : isPoint total = true
    · rw [if_pos hpoint]
      refine ⟨.pointEstablished, _, _, _, ?_, rfl⟩
      constructor <;> simp [throwDice, onComeout, hpuck]
    · rw [if_neg hpoint]
      refine ⟨.betResolved, _, _, _, ?_, rfl⟩
      constructor <;> simp [throwDice, onComeout, hpuck]
  | on point =>
    dsimp only
    by_cases hseven : total = 7
    · rw [if_pos hseven]
      refine ⟨.sevenOut, _, _, _, ?_, rfl⟩
      constructor <;> simp [throwDice, onComeout, hpuck]
      split <;> rfl
    · rw [if_neg hseven]
      by_cases hmade : total = point
      · rw [if_pos hmade]
        refine ⟨.pointMade, _, _, _, ?_, rfl⟩
        constructor <;> simp [throwDice, onComeout, hpuck]
      · rw [if_neg hmade]
        refine ⟨.roll, _, _, _, ?_, rfl⟩
        constructor <;> simp [throwDice, onComeout, hpuck]

/-- Where the puck is once a roll is settled, said by its event. -/
theorem Advances.pointOn {t next : Tracker} {past : History} {e : Event}
    (hadv : Advances t e.kind next) (h : Tallies t past) :
    next.onComeout = !History.pointOn (e :: past) := by
  have hbefore := h.pointOn_eq
  rw [hadv.onComeout]
  have hwas := hadv.before
  have hproper := hadv.proper
  cases hkind : e.kind with
  | comeout => exact absurd hkind hproper
  | pointEstablished | pointMade | sevenOut =>
    -- The event itself moved the puck.
    rw [History.pointOn_cons_moves (by simp [History.movesPuck, hkind])]
    simp [hkind]
  | roll | betResolved =>
    -- The puck stays where it was, and the event says where that is.
    rw [History.pointOn_cons_of_not_moves (by simp [History.movesPuck, hkind]), hbefore, hwas]
    simp [hkind]

/-- The rolls since the point once a roll is settled. -/
theorem Advances.rollsSincePoint_eq {t next : Tracker} {past : History} {e : Event}
    (hadv : Advances t e.kind next) (h : Tallies t past) :
    next.rollsSincePoint = History.rollsSincePoint (e :: past) := by
  have hon := hadv.pointOn h
  have hbefore := h.pointOn_eq
  have hwas := hadv.before
  have hproper := hadv.proper
  rw [hadv.rollsSincePoint, h.rollsSincePoint]
  rw [hadv.onComeout] at hon
  cases hkind : e.kind with
  | comeout => exact absurd hkind hproper
  | pointEstablished => rw [History.rollsSincePoint_cons_established hkind]; simp
  | roll =>
    rw [History.rollsSincePoint_cons_roll hkind (by rw [hbefore, hwas]; simp [hkind])]
    simp
  | betResolved =>
    rw [History.rollsSincePoint_cons_still (by simp [History.movesPuck, hkind])
      (by simp [hkind])]
    simp
  | pointMade | sevenOut =>
    -- The puck is off, so nothing is counted.
    have hoff : History.pointOn (e :: past) = false := by
      rw [hkind] at hon
      simpa using hon.symm
    rw [History.rollsSincePoint_of_off hoff]
    simp

/-- A settled roll keeps the tallies. -/
theorem Tallies.advance {t next : Tracker} {past : History} {e : Event} (h : Tallies t past)
    (hadv : Advances t e.kind next) : Tallies next (e :: past) := by
  have hproper := hadv.proper
  have hwas := hadv.before
  have hon := hadv.pointOn h
  have hbefore := h.pointOn_eq
  have hsince := hadv.rollsSincePoint_eq h
  constructor
  case handId => simp [hadv.handId, h.handId, hproper]
  case rollInHand =>
    rw [hadv.rollInHand, h.rollInHand, History.rollsInHand_cons_main hproper]
  case rollsSincePoint => exact hsince
  case pointsEstablished => simp [hadv.pointsEstablished, h.pointsEstablished]
  case pointsMade => simp [hadv.pointsMade, h.pointsMade]
  case sevenOuts => simp [hadv.sevenOuts, h.sevenOuts]
  case pointSevenOuts =>
    -- A seven-out comes with a point on, and then the rolls since say
    -- whether the roll before it set the point.
    have hlost : (e.kind = .sevenOut ∧ t.rollsSincePoint = 0) ↔ (e.kind = .sevenOut ∧
        ((History.mains past).head?.any fun e => e.kind = .pointEstablished) = true) := by
      refine and_congr_right fun hkind => ?_
      rw [h.rollsSincePoint, h.sincePoint (by rw [hbefore, hwas]; simp [hkind])]
    rw [hadv.pointSevenOuts, h.pointSevenOuts, History.pointSevenOuts_cons_main hproper]
    simp only [hlost]
  case onComeout => exact hon
  case balance =>
    -- A set point adds to the left and goes on; a made or lost one moves to the right.
    have hbalance := h.balance
    rw [hadv.pointsEstablished, hadv.pointsMade, hadv.sevenOuts, hadv.onComeout]
    rw [hwas] at hbalance
    cases hkind : e.kind <;> simp [hkind] at hbalance hproper ⊢ <;> omega
  case sincePoint =>
    -- With a point on now, the roll either set it or was a plain one.
    intro hnow
    rw [← hsince, History.mains_cons_main hproper, hadv.rollsSincePoint]
    rw [hadv.onComeout, hnow] at hon
    cases hkind : e.kind <;> simp [hkind] at hon ⊢

/-- The roll of an open hand: its event follows the history with the
marker, if there is one, and the roll index is one ahead. -/
theorem Tallies.roll {t : Tracker} {past : History} (h : Tallies t past)
    (hindex : t.rollIndex = History.rolls past + 1) (hpending : t.comeoutPending = false)
    (total : Nat) (dice : Option (Nat × Nat)) :
    let (next, main) := (t.throwDice total dice).settle total
    main.kind ≠ .comeout ∧ main.Recounts (main :: past) ∧ Counts next (main :: past) := by
  obtain ⟨kind, point, resolution, next, hadv, hrun⟩ := settle_advances t total dice
  rw [hrun]
  let main := next.event kind (some total) point resolution
  have hproper : main.kind ≠ .comeout := hadv.proper
  have htallies : Tallies next (main :: past) := h.advance hadv
  have hrolls : next.rollIndex = History.rolls (main :: past) := by
    rw [hadv.rollIndex, hindex, History.rolls_cons_main hproper]
  refine ⟨hproper, htallies.recounts kind (some total) point resolution ?_, htallies, hrolls, ?_⟩
  · rw [if_neg hadv.proper, Nat.add_zero, hrolls]
  · rw [hadv.pending, hpending, History.startsHand_cons_main hproper, Bool.false_or]
    rfl

/-- An accepted roll keeps the invariant, and its events are those of
a roll after the history. -/
theorem Counts.roll {t next : Tracker} {past : History} {total : Nat}
    {dice : Option (Nat × Nat)} {events : List Event} (h : Counts t past)
    (hroll : t.roll? total dice = some (next, events)) :
    Counts next (events.reverse ++ past) ∧ RollEvents past events := by
  unfold roll? at hroll
  split at hroll
  · cases hstarts : History.startsHand past with
    | true =>
      -- The hand is opened with its marker before the roll is settled.
      let opened : Tracker := { t with
        rollIndex := t.rollIndex + 1, comeoutPending := false, handId := t.handId + 1,
        rollInHand := 0 }
      let marker := opened.event .comeout none none none
      have hopen : t.openHand = (opened, [marker]) := by
        simp [openHand, h.pending, hstarts, opened, marker]
      have hmarked : Tallies opened (marker :: past) := h.toTallies.marker rfl _ _
      have hindex : opened.rollIndex = History.rolls (marker :: past) + 1 := by
        rw [History.rolls_cons_marker rfl, ← h.rollIndex]
      obtain ⟨hmain, hrecounts, hcounts⟩ := hmarked.roll hindex rfl total dice
      rw [hopen] at hroll
      cases hroll
      exact ⟨hcounts, .opening marker _ hstarts rfl hmain
        (hmarked.recounts .comeout none none none hindex) hrecounts⟩
    | false =>
      -- The hand goes on, and only the roll index moves ahead.
      have hopen : t.openHand = ({ t with rollIndex := t.rollIndex + 1 }, []) := by
        simp [openHand, h.pending, hstarts]
      have hcounted : Tallies { t with rollIndex := t.rollIndex + 1 } past :=
        { h.toTallies with }
      obtain ⟨hmain, hrecounts, hcounts⟩ := hcounted.roll (by rw [h.rollIndex])
        (h.pending.trans hstarts) total dice
      rw [hopen] at hroll
      cases hroll
      exact ⟨hcounts, .plain _ hstarts hmain hrecounts⟩
  · cases hroll

/-- A roll is accepted exactly when it can happen. -/
theorem isSome_roll?_iff (t : Tracker) (total : Nat) (dice : Option (Nat × Nat)) :
    (t.roll? total dice).isSome = true ↔ RollHappens total dice := by
  have haccepts : accepts total dice = true ↔ RollHappens total dice := by
    cases dice with
    | none => simp [accepts, RollHappens]
    | some pair =>
      obtain ⟨first, second⟩ := pair
      simp only [accepts, RollHappens, showsTotal, Option.all_some, Bool.and_eq_true,
        decide_eq_true_eq, Option.some.injEq, Prod.mk.injEq, and_assoc]
      constructor
      · rintro ⟨hlow, hhigh, hshows⟩
        refine ⟨hlow, hhigh, ?_⟩
        rintro _ _ ⟨rfl, rfl⟩
        exact hshows
      · rintro ⟨hlow, hhigh, hshows⟩
        exact ⟨hlow, hhigh, hshows first second ⟨rfl, rfl⟩⟩
  rw [← haccepts]
  unfold roll?
  split
  · rename_i hyes
    simp [hyes]
  · rename_i hno
    simp [hno]

end Tracker

namespace WatchedTable

/-- The last command is followed last. -/
theorem after_snoc (commands : List Command) (command : Command) :
    after (commands ++ [command]) = (after commands).follow command := by
  simp [after]

/-- A command keeps the invariant. -/
theorem counts_follow {w : WatchedTable} (h : w.tracker.Counts w.past) (command : Command) :
    (w.follow command).tracker.Counts (w.follow command).past := by
  cases command with
  | roll total dice =>
    cases hroll : w.tracker.roll? total dice with
    | none =>
      simp only [follow, hroll]
      exact h
    | some result =>
      simp only [follow, hroll]
      exact (h.roll hroll).1
  | resolve bet result payout => exact h
  | resetTable => exact Tracker.counts_fresh

/-- The fields of a tracker are counts over its history after any
commands. -/
theorem counts_after (commands : List Command) :
    (after commands).tracker.Counts (after commands).past :=
  List.foldlRecOn (motive := fun w : WatchedTable => w.tracker.Counts w.past) commands follow
    Tracker.counts_fresh fun _ h command _ => counts_follow h command

/-- What a table emits after any commands. A roll is refused exactly
when it cannot happen, and otherwise leads to the events of a roll
after the history. The event of a bet that was settled elsewhere
carries the counts over the history as it stands. Neither this nor a
refused roll changes the table. -/
theorem emitted_recounts (commands : List Command) :
    (∀ total dice,
      match (after commands).tracker.roll? total dice with
      | some (_, events) =>
        RollHappens total dice ∧ RollEvents (after commands).past events
      | none =>
        ¬ RollHappens total dice ∧
          after (commands ++ [.roll total dice]) = after commands) ∧
    (∀ bet result payout,
      ((after commands).tracker.resolve bet result payout).kind = .betResolved ∧
      ((after commands).tracker.resolve bet result payout).Recounts (after commands).past ∧
      after (commands ++ [.resolve bet result payout]) = after commands) := by
  have hcounts := counts_after commands
  refine ⟨fun total dice => ?_, fun bet result payout => ⟨rfl, ?_, ?_⟩⟩
  · have haccepted := (after commands).tracker.isSome_roll?_iff total dice
    cases hroll : (after commands).tracker.roll? total dice with
    | none =>
      refine ⟨by simp [← haccepted, hroll], ?_⟩
      rw [after_snoc]
      simp only [follow, hroll]
    | some result => exact ⟨haccepted.1 (by simp [hroll]), (hcounts.roll hroll).2⟩
  · exact hcounts.toTallies.recounts .betResolved _ _ _ hcounts.rollIndex
  · rw [after_snoc]
    rfl

/-- A point that is lost at once, and the first roll of the next hand,
the latest event first. -/
example : (after [.roll 6 none, .roll 7 none, .roll 8 none]).past.map Event.kind =
    [.pointEstablished, .comeout, .sevenOut, .pointEstablished, .comeout] := rfl

end WatchedTable

end CrapsStrategy
