import CrapsStrategy.Session.Replay

/-!
# `CrapsStrategy.Proofs.Session.Schedule`: playing a schedule

Settings that pass `Settings.check` have one entry in their schedule for
each roll, with a pair of dice of its own if there are dice at all. The
check asks no more of the dice than their number, and the table does:
they have to show the total. So a checked schedule is played to its end
exactly if every pair does (`schedule_of_check`), and the first pair that
does not ends it, after the events of the rolls before.

Whether a roll can happen depends on the roll alone and not on the table.
`Tracker.rollAll_ok_iff` carries this through a whole schedule, and
`Session.play_ok_iff` does so for the session that plays one
(`play_of_check`).
-/

set_option autoImplicit false

namespace CrapsStrategy

/-! ### Rolls in order -/

namespace Tracker

/-- Feeds rolls to a table in order, up to the first that cannot happen:
the events of the rolls before it, and the table after them or the fault
of the roll. -/
def rollAll (t : Tracker) :
    List (Nat × Option (Nat × Nat)) → List Event × Except InvalidRoll Tracker
  | [] => ([], .ok t)
  | (total, dice) :: rolls =>
    match t.roll? total dice with
    | none => ([], .error { total })
    | some (t, events) =>
      let (more, result) := t.rollAll rolls
      (events ++ more, result)

variable {t : Tracker} {total : Nat} {dice : Option (Nat × Nat)}
  {rolls : List (Nat × Option (Nat × Nat))} {fault : InvalidRoll}

/-- A roll that can happen goes in front of those after it. -/
theorem rollAll_cons_of_accepts (t : Tracker) (h : accepts total dice = true) :
    ∃ (next : Tracker) (events : List Event), ∀ rolls, t.rollAll ((total, dice) :: rolls) =
      (events ++ (next.rollAll rolls).1, (next.rollAll rolls).2) := by
  obtain ⟨next, events, hroll⟩ : ∃ next events, t.roll? total dice = some (next, events) := by
    unfold roll?
    rw [if_pos h]
    exact ⟨_, _, rfl⟩
  refine ⟨next, events, fun rolls => ?_⟩
  rw [rollAll, hroll]

/-- A roll that cannot happen ends it. -/
theorem rollAll_cons_of_not_accepts (t : Tracker) (h : accepts total dice = false) :
    t.rollAll ((total, dice) :: rolls) = ([], .error { total }) := by
  rw [rollAll, roll?, if_neg (by rw [h]; exact Bool.false_ne_true)]

/-- Rolls are fed to their end exactly if each of them can happen. -/
theorem rollAll_ok_iff : (t.rollAll rolls).2.isOk = true ↔
    ∀ roll ∈ rolls, accepts roll.1 roll.2 = true := by
  induction rolls generalizing t with
  | nil => exact iff_of_true rfl fun _ hroll => absurd hroll List.not_mem_nil
  | cons roll rolls ih =>
    rw [List.forall_mem_cons]
    cases haccepts : accepts roll.1 roll.2 with
    | true =>
      obtain ⟨next, events, hcons⟩ := rollAll_cons_of_accepts t haccepts
      rw [hcons, ih, and_iff_right rfl]
    | false =>
      rw [rollAll_cons_of_not_accepts t haccepts]
      exact iff_of_false Bool.false_ne_true fun h => Bool.false_ne_true h.1

/-- A fault is that of the first roll that cannot happen, and the events
are those of the rolls before it. -/
theorem rollAll_error (h : (t.rollAll rolls).2 = .error fault) :
    ∃ before dice after, rolls = before ++ (fault.total, dice) :: after ∧
      accepts fault.total dice = false ∧ (t.rollAll before).2.isOk = true ∧
      (t.rollAll rolls).1 = (t.rollAll before).1 := by
  induction rolls generalizing t with
  | nil => cases h
  | cons roll rolls ih =>
    cases haccepts : accepts roll.1 roll.2 with
    | true =>
      obtain ⟨next, events, hcons⟩ := rollAll_cons_of_accepts t haccepts
      rw [hcons] at h ⊢
      obtain ⟨before, dice, after, hrolls, hbad, hbefore, hevents⟩ := ih h
      refine ⟨roll :: before, dice, after, ?_, hbad, ?_, ?_⟩
      · rw [hrolls, List.cons_append]
      · rw [hcons]
        exact hbefore
      · rw [hcons, hevents]
    | false =>
      rw [rollAll_cons_of_not_accepts t haccepts] at h ⊢
      cases h
      exact ⟨[], roll.2, rolls, rfl, haccepts, rfl, rfl⟩

end Tracker

namespace Session

/-- A session plays rolls to their end exactly if each of them can
happen. -/
theorem play_ok_iff {τ : Type} [BettingTable τ] {s : Session τ}
    {rolls : List (Nat × Option (Nat × Nat))} : (s.play rolls).2.isOk = true ↔
      ∀ roll ∈ rolls, Tracker.accepts roll.1 roll.2 = true := by
  induction rolls generalizing s with
  | nil => exact iff_of_true rfl fun _ hroll => absurd hroll List.not_mem_nil
  | cons roll rolls ih =>
    rw [List.forall_mem_cons, play, perform, Controller.roll, Tracker.roll?]
    cases haccepts : Tracker.accepts roll.1 roll.2 with
    | true =>
      rw [if_pos rfl, and_iff_right rfl]
      exact ih
    | false =>
      rw [if_neg Bool.false_ne_true]
      exact iff_of_false Bool.false_ne_true fun h => Bool.false_ne_true h.1

end Session

/-! ### Schedules -/

namespace Settings

variable {settings : Settings}

/-- Settings pass the check if all totals are those of two dice and
there are as many dice as rolls, or none. -/
theorem check_ok_iff : settings.check = .ok () ↔
    (∀ total ∈ settings.rolls, isTotal total = true) ∧
      (settings.dice = [] ∨ settings.dice.length = settings.rolls.length) := by
  unfold check
  split
  · rename_i total hfind
    have hbad := List.find?_some hfind
    refine iff_of_false (by rintro ⟨⟩) fun h => ?_
    rw [h.1 total (List.mem_of_find?_eq_some hfind)] at hbad
    cases hbad
  · rename_i hfind
    have htotals : ∀ total ∈ settings.rolls, isTotal total = true := by
      simpa using hfind
    rw [and_iff_right htotals]
    split
    · rename_i huneven
      exact iff_of_false (by rintro ⟨⟩) fun h => h.elim huneven.1 huneven.2
    · rename_i heven
      refine iff_of_true rfl ?_
      by_cases hnone : settings.dice = []
      · exact .inl hnone
      · exact .inr (Decidable.not_not.1 fun huneven => heven ⟨hnone, huneven⟩)

/-- There is one entry for each roll, in order. -/
theorem map_fst_schedule (settings : Settings) :
    settings.schedule.map Prod.fst = settings.rolls := by
  rw [schedule, List.map_map]
  exact List.zipIdx_map_fst 0 settings.rolls

/-- Without dice the rolls are totals alone. -/
theorem schedule_of_noDice (h : settings.dice = []) :
    settings.schedule = settings.rolls.map fun total => (total, none) := by
  refine List.ext_getElem ?_ fun i hi hi' => ?_
  · simp [schedule]
  · simp [schedule, h]

/-- With as many pairs as rolls each roll has its pair. -/
theorem schedule_of_dice (h : settings.dice.length = settings.rolls.length) :
    settings.schedule =
      (settings.rolls.zip settings.dice).map fun roll => (roll.1, some roll.2) := by
  refine List.ext_getElem ?_ fun i hi hi' => ?_
  · simp [schedule, h]
  · have hbound : i < settings.dice.length := by
      simpa [schedule, h] using hi
    simp [schedule, hbound]

/-- Of a checked entry only the dice can be wrong. -/
theorem accepts_of_check (h : settings.check = .ok ()) {roll : Nat × Option (Nat × Nat)}
    (hroll : roll ∈ settings.schedule) :
    Tracker.accepts roll.1 roll.2 = roll.2.all (Tracker.showsTotal roll.1) := by
  have hmem : roll.1 ∈ settings.rolls := by
    rw [← map_fst_schedule]
    exact List.mem_map_of_mem hroll
  have htotal := (check_ok_iff.1 h).1 roll.1 hmem
  rw [isTotal] at htotal
  rw [Tracker.accepts, htotal, Bool.true_and]

/-- All rolls of a checked schedule can happen exactly if every pair of
dice shows its total. -/
theorem forall_accepts_of_check (h : settings.check = .ok ()) :
    (∀ roll ∈ settings.schedule, Tracker.accepts roll.1 roll.2 = true) ↔
      ∀ roll ∈ settings.rolls.zip settings.dice, Tracker.showsTotal roll.1 roll.2 = true := by
  have hdice : (∀ roll ∈ settings.schedule, Tracker.accepts roll.1 roll.2 = true) ↔
      ∀ roll ∈ settings.schedule, roll.2.all (Tracker.showsTotal roll.1) = true :=
    forall₂_congr fun roll hroll => by rw [accepts_of_check h hroll]
  rw [hdice]
  rcases (check_ok_iff.1 h).2 with hnone | hlength
  · rw [schedule_of_noDice hnone, hnone, List.zip_nil_right, List.forall_mem_map]
    exact iff_of_true (fun _ _ => rfl) fun _ hroll => absurd hroll List.not_mem_nil
  · rw [schedule_of_dice hlength, List.forall_mem_map]
    exact Iff.rfl

/-- Checked settings have one entry for each roll, with its own dice if
there are dice. The entries can all happen exactly if every pair of dice
shows its total, and otherwise they are played up to the first pair that
does not. -/
theorem schedule_of_check (h : settings.check = .ok ()) :
    settings.schedule.map Prod.fst = settings.rolls ∧
    (settings.dice = [] → ∀ roll ∈ settings.schedule, roll.2 = none) ∧
    (settings.dice ≠ [] → settings.schedule.map Prod.snd = settings.dice.map some) ∧
    ((Tracker.fresh.rollAll settings.schedule).2.isOk = true ↔
      ∀ roll ∈ settings.rolls.zip settings.dice, Tracker.showsTotal roll.1 roll.2 = true) ∧
    ∀ fault, (Tracker.fresh.rollAll settings.schedule).2 = .error fault →
      ∃ before pair after, settings.schedule = before ++ (fault.total, some pair) :: after ∧
        Tracker.showsTotal fault.total pair = false ∧
        (Tracker.fresh.rollAll before).2.isOk = true ∧
        (Tracker.fresh.rollAll settings.schedule).1 = (Tracker.fresh.rollAll before).1 := by
  refine ⟨map_fst_schedule settings, fun hnone => ?_, fun hdice => ?_, ?_, fun fault hfault => ?_⟩
  · rw [schedule_of_noDice hnone, List.forall_mem_map]
    exact fun _ _ => rfl
  · have hlength := (check_ok_iff.1 h).2.resolve_left hdice
    rw [schedule_of_dice hlength, List.map_map]
    show (settings.rolls.zip settings.dice).map (some ∘ Prod.snd) = _
    rw [← List.map_map, List.map_snd_zip (Nat.le_of_eq hlength)]
  · exact Tracker.rollAll_ok_iff.trans (forall_accepts_of_check h)
  · obtain ⟨before, dice, after, hschedule, hbad, hbefore, hevents⟩ := Tracker.rollAll_error hfault
    have hmem : (fault.total, dice) ∈ settings.schedule := by
      rw [hschedule]
      exact List.mem_append_right _ List.mem_cons_self
    rw [accepts_of_check h hmem] at hbad
    cases dice with
    | none => cases hbad
    | some pair => exact ⟨before, pair, after, hschedule, hbad, hbefore, hevents⟩

/-- A session plays checked settings to the end exactly if every pair of
dice shows its total. -/
theorem play_of_check {τ : Type} [BettingTable τ] (h : settings.check = .ok ()) (s : Session τ) :
    (s.play settings.schedule).2.isOk = true ↔
      ∀ roll ∈ settings.rolls.zip settings.dice, Tracker.showsTotal roll.1 roll.2 = true :=
  Session.play_ok_iff.trans (forall_accepts_of_check h)

/-- Two rolls with their dice. -/
def twoRolls : Settings :=
  { trace := false, strategyPath := defaultPath, bankroll := defaultBankroll, rolls := [6, 8],
    dice := [(3, 3), (2, 6)], logFilter := none, logJson := false }

/-- Two rolls whose dice show their totals are played to the end. -/
theorem schedule_of_check_twoRolls : twoRolls.check = .ok () ∧
    (Tracker.fresh.rollAll twoRolls.schedule).2.isOk = true := by
  refine ⟨rfl, (schedule_of_check rfl).2.2.2.1.2 ?_⟩
  decide

/-- The second of them with other dice. -/
def wrongDice : Settings :=
  { twoRolls with dice := [(3, 3), (1, 1)] }

/-- Dice that do not show the total of their roll pass the check, and
the roll is refused. -/
theorem rollAll_wrongDice : wrongDice.check = .ok () ∧
    (Tracker.fresh.rollAll wrongDice.schedule).2 = .error { total := 8 } :=
  ⟨rfl, rfl⟩

end Settings

end CrapsStrategy
