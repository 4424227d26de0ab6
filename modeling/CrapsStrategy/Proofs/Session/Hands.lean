import CrapsStrategy.Proofs.Event.History
import CrapsStrategy.Proofs.Session.Journal

/-!
# `CrapsStrategy.Proofs.Session.Hands`: what blocks a rule for a hand

A rule of the hand scope is locked by its fire, for the number of the
hand. `LastFire` is the latest fire of a rule in a journal, and a lock
is always the mark of that one (`lockedByFire_after`): any later fire
would have replaced it.

Numbers of hands count the come-out markers since the table was opened
(`handId_eq`). As long as the table is not started over, two passes
with one number therefore have no marker between them, and the fire
that blocks a rule lies in the hand of the blocked pass. Starting over
begins with the first hand again while the locks stay, so a lock of
the first hand before blocks the first hand after
(`lastFire_of_scopeLocked` has both).
-/

set_option autoImplicit false

namespace CrapsStrategy

variable {τ : Type}

/-! ### Hands in a journal -/

/-- The passes since the most recent come-out marker, that of the
marker included. Without a marker they are those since the start, or
since the table was started over. -/
def sinceMarker (journal : List (Entry τ)) : List (Turn τ) :=
  journal.foldl (fun hand entry =>
    match entry with
    | .turn t => if t.event.kind = .comeout then [t] else hand ++ [t]
    | .reset => []) []

/-- The number of the present hand: the come-out markers since the
table was opened. -/
def handNumber (journal : List (Entry τ)) : Nat :=
  journal.foldl (fun hand entry =>
    match entry with
    | .turn t => if t.event.kind = .comeout then hand + 1 else hand
    | .reset => 0) 0

/-- A pass joins the hand, or opens one of its own with its marker. -/
@[simp]
theorem sinceMarker_turn (journal : List (Entry τ)) (t : Turn τ) :
    sinceMarker (journal ++ [.turn t]) =
      if t.event.kind = .comeout then [t] else sinceMarker journal ++ [t] := by
  simp [sinceMarker]

/-- A marker counts, any other pass does not. -/
@[simp]
theorem handNumber_turn (journal : List (Entry τ)) (t : Turn τ) :
    handNumber (journal ++ [.turn t]) =
      handNumber journal + if t.event.kind = .comeout then 1 else 0 := by
  simp only [handNumber, List.foldl_append, List.foldl_cons, List.foldl_nil]
  split <;> rfl

/-- Starting over begins again before the first hand. -/
@[simp]
theorem handNumber_reset (journal : List (Entry τ)) : handNumber (journal ++ [.reset]) = 0 := by
  simp [handNumber]

/-- The latest pass is always in the present hand. -/
theorem mem_sinceMarker_turn (journal : List (Entry τ)) (t : Turn τ) :
    t ∈ sinceMarker (journal ++ [.turn t]) := by
  rw [sinceMarker_turn]
  split <;> simp

/-- Until a table is started over, its hands only go up, and as long as
they stay the passes of the hand stay in it. -/
theorem handNumber_append {journal later : List (Entry τ)} (hreset : .reset ∉ later) :
    handNumber journal ≤ handNumber (journal ++ later) ∧
      (handNumber (journal ++ later) = handNumber journal →
        ∀ t ∈ sinceMarker journal, t ∈ sinceMarker (journal ++ later)) := by
  induction later using List.reverseRecOn with
  | nil =>
    rw [List.append_nil]
    exact ⟨Nat.le_refl _, fun _ t ht => ht⟩
  | append_singleton later entry ih =>
    obtain ⟨hle, hstays⟩ := ih fun hmem => hreset (List.mem_append_left _ hmem)
    rw [← List.append_assoc]
    cases entry with
    | reset => exact absurd (List.mem_append_right _ (List.mem_singleton_self _)) hreset
    | turn t =>
      rw [handNumber_turn, sinceMarker_turn]
      refine ⟨by omega, fun hsame fire hfire => ?_⟩
      -- A marker would have given the hand another number.
      have hplain : t.event.kind ≠ .comeout := by
        intro hmarker
        rw [if_pos hmarker] at hsame
        omega
      rw [if_neg hplain] at hsame ⊢
      exact List.mem_append_left _ (hstays (by omega) fire hfire)

/-- The events of a journal carry the numbers of their hands. -/
def Numbered (journal : List (Entry τ)) : Prop :=
  ∀ past t, past ++ [.turn t] <+: journal → t.event.handId = handNumber (past ++ [.turn t])

/-- A journal stays numbered by a pass that has the number of its hand. -/
theorem Numbered.turn {journal : List (Entry τ)} (h : Numbered journal) {t : Turn τ}
    (hnew : t.event.handId = handNumber (journal ++ [.turn t])) :
    Numbered (journal ++ [.turn t]) := by
  intro past t' hprefix
  rcases List.prefix_concat_iff.1 hprefix with hlast | hold
  · obtain ⟨rfl, hentry⟩ := List.append_inj' hlast rfl
    cases hentry
    exact hnew
  · exact h past t' hold

/-- A journal stays numbered when the table is started over, as no event
comes with that. -/
theorem Numbered.reset {journal : List (Entry τ)} (h : Numbered journal) :
    Numbered (journal ++ [.reset]) := by
  intro past t hprefix
  rcases List.prefix_concat_iff.1 hprefix with hlast | hold
  · obtain ⟨_, hentry⟩ := List.append_inj' hlast rfl
    cases hentry
  · exact h past t hold

/-- A pass whose event counts the markers of the rolls up to it. -/
theorem Numbered.pass {journal : List (Entry τ)} (h : Numbered journal) {past : History}
    {t : Turn τ} (hhand : History.ofKind .comeout past = handNumber journal)
    (hcount : t.event.handId = History.ofKind .comeout (t.event :: past)) :
    Numbered (journal ++ [.turn t]) ∧
      History.ofKind .comeout (t.event :: past) = handNumber (journal ++ [.turn t]) := by
  have hnumber : History.ofKind .comeout (t.event :: past) =
      handNumber (journal ++ [.turn t]) := by
    rw [History.ofKind_cons, handNumber_turn, hhand]
  exact ⟨h.turn (hcount.trans hnumber), hnumber⟩

/-! ### The latest fire -/

variable [BettingTable τ]

/-- The latest pass of a journal in which the rule at a position fired,
with what came before and since. -/
structure LastFire (position : Nat) (journal earlier : List (Entry τ)) (fire : Turn τ)
    (since : List (Entry τ)) : Prop where
  journal_eq : journal = earlier ++ .turn fire :: since
  fired : fire.verdict? position = some .fired
  quiet : ∀ t, .turn t ∈ since → t.verdict? position ≠ some .fired

/-- The latest fire remains the latest, until the rule fires again. -/
theorem LastFire.snoc {position : Nat} {journal earlier since : List (Entry τ)} {fire : Turn τ}
    (h : LastFire position journal earlier fire since) {entry : Entry τ}
    (hquiet : ∀ t, entry = .turn t → t.verdict? position ≠ some .fired) :
    LastFire position (journal ++ [entry]) earlier fire (since ++ [entry]) := by
  constructor
  case journal_eq =>
    rw [h.journal_eq, List.append_assoc, List.cons_append]
  case fired => exact h.fired
  case quiet =>
    intro t ht
    rcases List.mem_append.1 ht with hold | hnew
    · exact h.quiet t hold
    · exact hquiet t (List.mem_singleton.1 hnew).symm

/-- The verdict of a pass on a rule, read off the rule and its state. -/
theorem Turn.verdict?_eq (t : Turn τ) {position : Nat} {armed : ArmedRule}
    (h : t.before.engine.armed[position]? = some armed) :
    t.verdict? position = (armed.rule.judge armed.state.tick t.snapshot).2 := by
  rw [verdict?, RuleEngine.judgeAll_tick, List.getElem?_map, h]
  rfl

namespace Play

open Controller

/-- The lock that a rule has for a hand is that of its latest fire. -/
def LockedByFire (position : Nat) (p : Play τ) : Prop :=
  ∀ armed handId, p.controller.engine.armed[position]? = some armed →
    armed.rule.scope = .hand → armed.state.lock = some (.hand handId) →
      ∃ earlier fire since, LastFire position p.journal earlier fire since ∧
        fire.event.handId = handId

/-- A pass keeps that: a rule that fires gets a lock of its own, and
another one keeps the lock or loses it. -/
theorem LockedByFire.handle {position : Nat} {p : Play τ} (h : p.LockedByFire position)
    (event : Event) : (p.handle event).LockedByFire position := by
  intro next handId hnext hscope hlock
  let t : Turn τ := { before := p.controller, event }
  have harmed : (p.controller.handle event).1.engine.armed[position]? = some next := hnext
  rw [armed_handle, List.getElem?_map, Option.map_eq_some_iff] at harmed
  obtain ⟨armed, hat, rfl⟩ := harmed
  have hverdict := t.verdict?_eq hat
  have hkey : armed.rule.scope.lock? t.snapshot.handId = some (.hand event.handId) := by
    have hhand : armed.rule.scope = .hand := hscope
    rw [hhand]
    rfl
  rcases armed.rule.lock_judge armed.state.tick t.snapshot with
    ⟨hfired, hnew⟩ | ⟨hquiet, hgone | hkept⟩
  · -- The lock is for the hand of this pass.
    have hsame : some (ScopeLock.hand event.handId) = some (.hand handId) := by
      rw [← hlock, ← hkey]
      exact (hnew.trans (by rw [hkey]; rfl)).symm
    cases hsame
    refine ⟨p.journal, t, [], ⟨rfl, hverdict.trans hfired, ?_⟩, rfl⟩
    intro later hlater
    cases hlater
  · cases hlock.symm.trans hgone
  · -- The lock is an old one, and so is the latest fire.
    obtain ⟨earlier, fire, since, hlast, hhand⟩ :=
      h armed handId hat hscope (hkept.symm.trans hlock)
    have hstill : LastFire position (p.journal ++ [.turn t]) earlier fire (since ++ [.turn t]) := by
      refine hlast.snoc ?_
      rintro _ ⟨⟩
      rwa [hverdict]
    exact ⟨earlier, fire, _, hstill, hhand⟩

/-- Starting the table over leaves the locks and adds no fire, so they
are marks of the same one. -/
theorem LockedByFire.reset {position : Nat} {p : Play τ} (h : p.LockedByFire position) :
    p.reset.LockedByFire position := by
  intro armed handId hat hscope hlock
  obtain ⟨earlier, fire, since, hlast, hhand⟩ := h armed handId hat hscope hlock
  have hstill : LastFire position (p.journal ++ [.reset]) earlier fire (since ++ [.reset]) := by
    refine hlast.snoc ?_
    rintro _ ⟨⟩
  exact ⟨earlier, fire, _, hstill, hhand⟩

variable {strategy : Strategy} {table : τ} {c : Controller τ}

/-- No rule is locked before the first pass. -/
theorem lockedByFire_start (hc : Ready strategy table c) (position : Nat) :
    LockedByFire position { controller := c, journal := [] } := by
  obtain ⟨started, verbs, traced, hstart, rfl⟩ := hc
  obtain ⟨_, rules, _, rfl⟩ := start_eq_ok hstart
  intro armed handId hat _ hlock
  have hfresh : (rules.map fun rule => ({ rule, state := .fresh } : ArmedRule))[position]? =
      some armed := hat
  rw [List.getElem?_map, Option.map_eq_some_iff] at hfresh
  obtain ⟨rule, _, rfl⟩ := hfresh
  cases hlock

/-- Before every pass of a play a lock goes back to a fire. -/
theorem lockedByFire_before (hc : Ready strategy table c) (position : Nat)
    {commands : List Command} {past : List (Entry τ)} {t : Turn τ}
    (hturn : past ++ [.turn t] <+: (after c commands).journal) :
    LockedByFire position { controller := t.before, journal := past } :=
  before_induction (lockedByFire_start hc position) (fun _ event hp => hp.handle event)
    (fun _ _ hp => hp) (fun _ hp => hp.reset) commands hturn

/-! ### The numbers of hands -/

/-- The tracker of a play counts the rolls since the table was opened,
and the journal has the number of its hand. -/
structure CountsHands (p : Play τ) : Prop where
  tracker : ∃ past : History, p.controller.tracker.Counts past ∧
    History.ofKind .comeout past = handNumber p.journal
  numbered : Numbered p.journal

/-- A command keeps tracker and journal at one number. Both go back to
zero when the table is started over. -/
theorem CountsHands.follow {p : Play τ} (h : p.CountsHands) (command : Command) :
    (p.follow command).CountsHands := by
  obtain ⟨⟨past, hcounts, hhand⟩, hnumbered⟩ := h
  cases command with
  | resetTable =>
    exact ⟨⟨[], Tracker.counts_fresh, (handNumber_reset p.journal).symm⟩, hnumbered.reset⟩
  | resolve bet result payout =>
    -- The event of a settled bet is no roll, and no marker either.
    let e := p.controller.tracker.resolve bet result payout
    have hplain : History.ofKind .comeout (e :: past) = History.ofKind .comeout past := by
      rw [History.ofKind_cons, if_neg EventKind.noConfusion, Nat.add_zero]
    obtain ⟨hpass, hnumber⟩ := hnumbered.pass (t := { before := p.controller, event := e }) hhand
      (hcounts.handId.trans hplain.symm)
    exact ⟨⟨past, hcounts, hplain.symm.trans hnumber⟩, hpass⟩
  | roll total dice =>
    rw [Play.follow]
    cases hroll : p.controller.tracker.roll? total dice with
    | none => exact ⟨⟨past, hcounts, hhand⟩, hnumbered⟩
    | some result =>
      obtain ⟨tracker, events⟩ := result
      obtain ⟨hnext, hevents⟩ := hcounts.roll hroll
      let opened := p.withTracker tracker
      cases hevents with
      | opening marker main hstarts hmarker hmain hfirst hsecond =>
        obtain ⟨hpass, hnumber⟩ := hnumbered.pass
          (t := { before := opened.controller, event := marker }) hhand hfirst.handId
        obtain ⟨hpass, hnumber⟩ := hpass.pass
          (t := { before := (opened.handle marker).controller, event := main }) hnumber
          hsecond.handId
        exact ⟨⟨_, hnext, hnumber⟩, hpass⟩
      | plain main hgoes hmain hrecounts =>
        obtain ⟨hpass, hnumber⟩ := hnumbered.pass
          (t := { before := opened.controller, event := main }) hhand hrecounts.handId
        exact ⟨⟨_, hnext, hnumber⟩, hpass⟩

/-- Every event of a play carries the number of its hand. -/
theorem handId_eq (hc : Ready strategy table c) {commands : List Command}
    {past : List (Entry τ)} {t : Turn τ}
    (hturn : past ++ [.turn t] <+: (after c commands).journal) :
    t.event.handId = handNumber (past ++ [.turn t]) := by
  have hstart : CountsHands { controller := c, journal := [] } := by
    obtain ⟨started, verbs, traced, hstart, rfl⟩ := hc
    obtain ⟨_, rules, _, rfl⟩ := start_eq_ok hstart
    exact ⟨⟨[], Tracker.counts_fresh, rfl⟩, fun past t hprefix => by simp at hprefix⟩
  have hafter : (after c commands).CountsHands :=
    List.foldlRecOn (motive := CountsHands) commands follow hstart fun _ hp command _ =>
      hp.follow command
  exact hafter.numbered past t hturn

/-- Two passes with one number are in one hand, unless the table was
started over between them. -/
theorem mem_sinceMarker_of_handId (hc : Ready strategy table c) {commands : List Command}
    {earlier since : List (Entry τ)} {fire t : Turn τ}
    (hturn : earlier ++ .turn fire :: since ++ [.turn t] <+: (after c commands).journal)
    (hhand : fire.event.handId = t.event.handId) (hreset : .reset ∉ since) :
    fire ∈ sinceMarker (earlier ++ .turn fire :: since ++ [.turn t]) := by
  have hsplit : earlier ++ .turn fire :: since ++ [.turn t] =
      (earlier ++ [.turn fire]) ++ (since ++ [.turn t]) := by simp
  rw [hsplit] at hturn ⊢
  have hfire : earlier ++ [.turn fire] <+: (after c commands).journal :=
    (List.prefix_append _ _).trans hturn
  -- No marker lies between them, as it would have counted.
  have hnumber : handNumber (earlier ++ [.turn fire] ++ (since ++ [.turn t])) =
      handNumber (earlier ++ [.turn fire]) := by
    rw [← handId_eq hc hfire, hhand]
    rw [← List.append_assoc] at hturn ⊢
    exact (handId_eq hc hturn).symm
  have hopen : .reset ∉ since ++ [.turn t] := by
    intro hmem
    rcases List.mem_append.1 hmem with hold | hnew
    · exact hreset hold
    · cases List.mem_singleton.1 hnew
  exact (handNumber_append hopen).2 hnumber fire (mem_sinceMarker_turn earlier fire)

/-! ### What blocks a rule -/

/-- A rule of the hand scope is only blocked by its latest fire, which
was in a hand of the same number. Unless the table was started over
since, that was in the hand of the blocked pass: after the most recent
come-out marker. -/
theorem lastFire_of_scopeLocked (hc : Ready strategy table c) (commands : List Command)
    {rules : List Rule} (hrules : Rule.compileAll strategy.rules = .ok rules) {position : Nat}
    {rule : Rule} (hrule : rules[position]? = some rule) (hscope : rule.scope = .hand)
    {past : List (Entry τ)} {t : Turn τ}
    (hturn : past ++ [.turn t] <+: (after c commands).journal)
    (hblocked : t.verdict? position = some .scopeLocked) :
    ∃ earlier fire since, LastFire position past earlier fire since ∧
      fire.event.handId = t.event.handId ∧
      (.reset ∈ since ∨ fire ∈ sinceMarker (past ++ [.turn t])) := by
  have hreachable : Reachable strategy t.before :=
    (logged hc.logged commands).reachable_before (mem_turns_of_journal hturn)
  -- The rule at this position is the same throughout the run.
  obtain ⟨armed, hat, rfl⟩ : ∃ armed, t.before.engine.armed[position]? = some armed ∧
      armed.rule = rule := by
    have hsame : t.before.engine.rules = rules :=
      Except.ok.inj (hreachable.keeps.compiled.symm.trans hrules)
    rwa [← hsame, RuleEngine.rules, List.getElem?_map, Option.map_eq_some_iff] at hrule
  rw [t.verdict?_eq hat] at hblocked
  obtain ⟨lock, hkey, hlock⟩ := Rule.lock_of_scopeLocked hblocked
  -- The lock it ran into is the one for the hand of this pass.
  rw [hscope] at hkey
  cases hkey
  obtain ⟨earlier, fire, since, hlast, hhand⟩ :=
    lockedByFire_before hc position hturn armed _ hat hscope hlock
  refine ⟨earlier, fire, since, hlast, hhand, ?_⟩
  by_cases hreset : .reset ∈ since
  · exact .inl hreset
  · right
    have hpast : past = earlier ++ .turn fire :: since := hlast.journal_eq
    rw [hpast] at hturn ⊢
    exact mem_sinceMarker_of_handId hc hturn hhand hreset

/-! ### A rule once in a hand -/

/-- A strategy that sets a variable when a point is established, once
in a hand. -/
def onceInHand : Strategy :=
  let step : StepObject :=
    { action := none, bet := none, amount := none, notes := none, mode := none, var := none,
      value := none }
  { table := { bubble := false, level := 10, oddsPolicy := none }
    vars := .empty
    modes := .ofList [("Main", .empty)]
    rules := [{
      name := none, id := none, event := some "point_established", guard := none
      steps := [
        .object { step with action := some "setvar", var := some "units",
                            value := some (.ofNat 15) }]
      thenStep := none, scope := .hand, cooldown := 0, once := false }] }

/-- A table with a hundred dollars and no bets. -/
def bareTable : PaperTable :=
  { bets := .empty, bankroll := 100 }

/-- The verdict of the last pass of a journal on the first rule. -/
def lastVerdict? (p : Play PaperTable) : Option Verdict :=
  (p.journal.getLast?.bind Entry.turn?).bind fun t => t.verdict? 0

/-- A play that ends with a verdict ends with the pass that has it. -/
theorem exists_last_of_lastVerdict? {p : Play PaperTable} {verdict : Verdict}
    (h : p.lastVerdict? = some verdict) :
    ∃ past t, p.journal = past ++ [.turn t] ∧ t.verdict? 0 = some verdict := by
  obtain ⟨t, hlast, hverdict⟩ := Option.bind_eq_some_iff.1 h
  obtain ⟨entry, hentry, hturn⟩ := Option.bind_eq_some_iff.1 hlast
  obtain ⟨past, hjournal⟩ := List.getLast?_eq_some_iff.1 hentry
  cases entry with
  | reset => cases hturn
  | turn t' =>
    cases hturn
    exact ⟨past, t, hjournal, hverdict⟩

/-- The rule of the strategy, compiled. -/
theorem compile_onceInHand :
    ∃ rules rule, Rule.compileAll onceInHand.rules = .ok rules ∧ rules[0]? = some rule ∧
      rule.scope = .hand := by
  have hscope : (Rule.compileAll onceInHand.rules).toOption.map (fun rules =>
      rules[0]?.map Rule.scope) = some (some .hand) := by
    decide +kernel
  obtain ⟨rules, hcompiled, hfirst⟩ := exists_ok_of_toOption hscope
  obtain ⟨rule, hrule, hhand⟩ := Option.map_eq_some_iff.1 hfirst
  exact ⟨rules, rule, hcompiled, hrule, hhand⟩

/-- A play of the strategy whose last pass has its rule blocked, and
what has been read off that play. -/
theorem exists_blocked {α : Type} (commands : List Command) (read : Play PaperTable → α) {a : α}
    (h : (Controller.start onceInHand bareTable).toOption.map (fun c =>
      ((after c commands).lastVerdict?, read (after c commands))) =
        some (some .scopeLocked, a)) :
    ∃ (c : Controller PaperTable) (past : List (Entry PaperTable)) (t : Turn PaperTable),
      Ready onceInHand bareTable c ∧ (after c commands).journal = past ++ [.turn t] ∧
        t.verdict? 0 = some .scopeLocked ∧ read (after c commands) = a := by
  obtain ⟨c, hstart, hseen⟩ := exists_ok_of_toOption h
  obtain ⟨hverdict, hread⟩ := Prod.mk.inj hseen
  obtain ⟨past, t, hjournal, hblocked⟩ := exists_last_of_lastVerdict? hverdict
  exact ⟨c, past, t, .of_start hstart, hjournal, hblocked, hread⟩

/-- A point that is established, made and established again in one
hand: the rule is blocked, and it has fired in that hand. -/
theorem blocked_onceInHand :
    ∃ (c : Controller PaperTable) (rules : List Rule) (rule : Rule)
        (past : List (Entry PaperTable)) (t : Turn PaperTable),
      Ready onceInHand bareTable c ∧ Rule.compileAll onceInHand.rules = .ok rules ∧
      rules[0]? = some rule ∧ rule.scope = .hand ∧
      past ++ [.turn t] <+: (after c [.roll 6 none, .roll 6 none, .roll 6 none]).journal ∧
      t.verdict? 0 = some .scopeLocked ∧
      ∃ fire ∈ sinceMarker (past ++ [.turn t]), fire.verdict? 0 = some .fired := by
  let commands : List Command := [.roll 6 none, .roll 6 none, .roll 6 none]
  obtain ⟨c, past, t, hc, hjournal, hblocked, hturns⟩ :=
    exists_blocked commands (fun p => p.journal.all fun e => e.turn?.isSome)
      (a := true) (by decide +kernel)
  obtain ⟨rules, rule, hrules, hrule, hscope⟩ := compile_onceInHand
  have hturn : past ++ [.turn t] <+: (after c commands).journal :=
    hjournal ▸ List.prefix_refl _
  obtain ⟨earlier, fire, since, hlast, _, hreset | hhand⟩ :=
    lastFire_of_scopeLocked hc commands hrules hrule hscope hturn hblocked
  · -- The table was never started over.
    have hmem : Entry.reset ∈ (after c commands).journal := by
      rw [hjournal, hlast.journal_eq]
      simp [hreset]
    cases List.all_eq_true.1 hturns _ hmem
  · exact ⟨c, rules, rule, past, t, hc, hrules, hrule, hscope, hturn, hblocked, fire, hhand,
      hlast.fired⟩

/-- A point that is established before and after the table is started
over: the rule is blocked, and it has not fired in that hand. -/
theorem blocked_after_reset_onceInHand :
    ∃ (c : Controller PaperTable) (rules : List Rule) (rule : Rule)
        (past : List (Entry PaperTable)) (t : Turn PaperTable),
      Ready onceInHand bareTable c ∧ Rule.compileAll onceInHand.rules = .ok rules ∧
      rules[0]? = some rule ∧ rule.scope = .hand ∧
      past ++ [.turn t] <+: (after c [.roll 6 none, .resetTable, .roll 6 none]).journal ∧
      t.verdict? 0 = some .scopeLocked ∧
      ∀ fire ∈ sinceMarker (past ++ [.turn t]), fire.verdict? 0 ≠ some .fired := by
  let commands : List Command := [.roll 6 none, .resetTable, .roll 6 none]
  obtain ⟨c, past, t, hc, hjournal, hblocked, hsince⟩ :=
    exists_blocked commands (fun p => (sinceMarker p.journal).map fun t => t.verdict? 0)
      (a := [none, some .scopeLocked]) (by decide +kernel)
  obtain ⟨rules, rule, hrules, hrule, hscope⟩ := compile_onceInHand
  have hturn : past ++ [.turn t] <+: (after c commands).journal :=
    hjournal ▸ List.prefix_refl _
  refine ⟨c, rules, rule, past, t, hc, hrules, hrule, hscope, hturn, hblocked, ?_⟩
  intro fire hfire hfired
  rw [← hjournal] at hfire
  have hlisted : some Verdict.fired ∈ [none, some Verdict.scopeLocked] := by
    rw [← hfired, ← hsince]
    exact List.mem_map_of_mem hfire
  simp at hlisted

end Play

end CrapsStrategy
