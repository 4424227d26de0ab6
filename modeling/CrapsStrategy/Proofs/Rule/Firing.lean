import CrapsStrategy.Rule.Engine
import Mathlib.Data.List.Induction

/-!
# `CrapsStrategy.Proofs.Rule.Firing`: fires read off the history

A pass is a tick of the engine and the judgement of one snapshot.
`RuleEngine.firings` lists the positions that fire in each pass of a
run. Whether a rule fires is decided by four state fields that
different branches of `Rule.judge` change. `firings_iff_firingLaw`
says the same without any state: a rule fires at a pass exactly when
its trigger and its guard hold there and none of its earlier fires
forbids it (`FiringLaw`).

The proof goes rule by rule, since no rule sees the state of another
(`armed_afterPasses`). `Rule.Recalls` is the invariant that ties the
state of one rule to the set of its past fires, and `recalls_snoc` is
its step. A lock for an old hand stays until the rule is triggered
again. It does no harm, because the numbers of hands never fall:
`Recalls.hand_complete` only asks for the lock of the present hand.

The count of a rest has 32 bits and starts one above the cooldown.
The law asks for a cooldown below the greatest one, where the count
wraps to zero and the rule never rests
(`resting_stateAfter_greatest`).
`resting_tick_fire` is the only lemma that needs the bound.
-/

set_option autoImplicit false

namespace CrapsStrategy

/-! ### The law -/

/-- Hand numbers that never fall. -/
def HandsAscend (passes : List Snapshot) : Prop :=
  passes.Pairwise fun earlier later => earlier.handId ≤ later.handId

/-- In ascending hands no earlier hand has a greater number than the
next one. -/
theorem HandsAscend.le_next {passes : List Snapshot} {snapshot past : Snapshot}
    (hasc : HandsAscend (passes ++ [snapshot])) (hpast : past ∈ passes) :
    past.handId ≤ snapshot.handId :=
  (List.pairwise_append.1 hasc).2.2 past hpast snapshot (List.mem_singleton_self _)

/-- Whether the guard of a rule is absent or holds. -/
def Rule.GuardHolds (rule : Rule) (snapshot : Snapshot) : Prop :=
  ∀ guard, rule.guard = some guard → guard.test snapshot.scope = .ok true

/-- When a rule fires at pass `k` of some passes, given the passes
that it fired in. Only the passes before `k` count. -/
structure FiringLaw (rule : Rule) (passes : List Snapshot) (fired : Nat → Prop) (k : Nat)
    (snapshot : Snapshot) : Prop where
  triggered : rule.trigger = some snapshot.event
  guarded : rule.GuardHolds snapshot
  /-- No fire lies in the `cooldown` passes before `k`. -/
  rested : ∀ j < k, fired j → j + rule.cooldown < k
  single : rule.once = true ∨ rule.scope = .session → ∀ j < k, ¬ fired j
  newHand : rule.scope = .hand → ∀ j < k, fired j →
    ∀ past, passes[j]? = some past → past.handId ≠ snapshot.handId

/-- The law of a pass reads nothing but what came before it. -/
theorem FiringLaw.congr {rule : Rule} {passes passes' : List Snapshot} {fired fired' : Nat → Prop}
    {k : Nat} {snapshot : Snapshot} (hpasses : ∀ j < k, passes[j]? = passes'[j]?)
    (hfired : ∀ j < k, (fired j ↔ fired' j)) (h : FiringLaw rule passes fired k snapshot) :
    FiringLaw rule passes' fired' k snapshot where
  triggered := h.triggered
  guarded := h.guarded
  rested j hj hf := h.rested j hj ((hfired j hj).2 hf)
  single hs j hj hf := h.single hs j hj ((hfired j hj).2 hf)
  newHand hs j hj hf past hget :=
    h.newHand hs j hj ((hfired j hj).2 hf) past ((hpasses j hj).trans hget)

/-- Whether the rule at a position fired in a pass, by the log of all
passes. -/
def FiredIn (log : List (List Nat)) (position pass : Nat) : Prop :=
  ∃ fired, log[pass]? = some fired ∧ position ∈ fired

namespace RuleEngine

/-- One pass: a tick, and the judgement of the snapshot. -/
def pass (engine : RuleEngine) (snapshot : Snapshot) : RuleEngine × List Nat :=
  engine.tick.evaluate snapshot

/-- The positions that fire in each of some passes. -/
def firings (engine : RuleEngine) : List Snapshot → List (List Nat)
  | [] => []
  | snapshot :: rest => (engine.pass snapshot).2 :: (engine.pass snapshot).1.firings rest

/-- The engine after some passes. -/
def afterPasses (engine : RuleEngine) (passes : List Snapshot) : RuleEngine :=
  passes.foldl (fun engine snapshot => (engine.pass snapshot).1) engine

end RuleEngine

/-! ### One judgement -/

namespace RuleState

/-- Dropping a lock changes nothing else. -/
@[simp]
theorem resting_refresh (state : RuleState) (key : Option ScopeLock) :
    (state.refresh key).resting = state.resting := by
  unfold refresh
  split <;> rfl

/-- Nor does it enable a rule that is disabled. -/
@[simp]
theorem disabled_refresh (state : RuleState) (key : Option ScopeLock) :
    (state.refresh key).disabled = state.disabled := by
  unfold refresh
  split <;> rfl

/-- A tick after its fire a rule rests for its cooldown. The rule was
at rest no more when it fired, so one without a cooldown does not rest
at all. -/
theorem resting_tick_fire {state : RuleState} {rule : Rule} (hrested : state.resting = 0)
    (hcooldown : rule.cooldown < 4294967295) (key : Option ScopeLock) (rollIndex : Nat) :
    (state.fire rule key rollIndex).tick.resting = rule.cooldown := by
  show (if 0 < rule.cooldown then (rule.cooldown + 1) % 4294967296 else state.resting) - 1 = _
  split <;> omega

/-- At the greatest cooldown the count of the rest wraps to zero. -/
theorem resting_fire_greatest (state : RuleState) {rule : Rule}
    (hcooldown : rule.cooldown = 4294967295) (key : Option ScopeLock) (rollIndex : Nat) :
    (state.fire rule key rollIndex).resting = 0 := by
  simp [fire, hcooldown]

end RuleState

namespace Rule

/-- What a rule needs of its state to fire at a snapshot. -/
def CanFire (rule : Rule) (state : RuleState) (snapshot : Snapshot) : Prop :=
  state.disabled = false ∧ rule.trigger = some snapshot.event ∧
    (∀ lock, rule.scope.lock? snapshot.handId = some lock → state.lock ≠ some lock) ∧
    state.resting = 0 ∧ rule.GuardHolds snapshot

/-- Once nothing else stands in the way, the guard decides. One that
faults counts as one that does not hold. -/
theorem judge_of_rested {rule : Rule} {state : RuleState} {snapshot : Snapshot}
    (hdisabled : state.disabled = false) (htrigger : rule.trigger = some snapshot.event)
    (hfree : ∀ lock, rule.scope.lock? snapshot.handId = some lock → state.lock ≠ some lock)
    (hrested : state.resting = 0) :
    (rule.GuardHolds snapshot ∧
      rule.judge state snapshot =
        ((state.refresh (rule.scope.lock? snapshot.handId)).fire rule
          (rule.scope.lock? snapshot.handId) snapshot.rollIndex, some .fired)) ∨
    (¬ rule.GuardHolds snapshot ∧ (rule.judge state snapshot).2 ≠ some .fired ∧
      (rule.judge state snapshot).1 = state.refresh (rule.scope.lock? snapshot.handId)) := by
  have hlive : ¬ (state.disabled || rule.trigger != some snapshot.event) = true := by
    simp [hdisabled, htrigger]
  have hopen : ¬ ((rule.scope.lock? snapshot.handId).isSome &&
      state.lock == rule.scope.lock? snapshot.handId) = true := by
    intro hlocked
    simp only [Bool.and_eq_true, Option.isSome_iff_exists, beq_iff_eq] at hlocked
    obtain ⟨⟨lock, hkey⟩, hlock⟩ := hlocked
    exact hfree lock hkey (hlock.trans hkey)
  -- The guard is all that is left to look at.
  unfold judge
  dsimp only
  rw [if_neg hlive, if_neg hopen, if_neg (by rw [RuleState.resting_refresh]; omega)]
  cases hguard : rule.guard with
  | none =>
    refine .inl ⟨?_, rfl⟩
    intro guard hsome
    rw [hguard] at hsome
    cases hsome
  | some guard =>
    have hholds : rule.GuardHolds snapshot ↔ guard.test snapshot.scope = .ok true := by
      simp [GuardHolds, hguard]
    rw [hholds]
    cases htest : guard.test snapshot.scope with
    | error fault => exact .inr ⟨by simp, by simp [htest], by simp [htest]⟩
    | ok holds =>
      cases holds with
      | true => exact .inl ⟨rfl, by simp [htest]⟩
      | false => exact .inr ⟨by simp, by simp [htest], by simp [htest]⟩

/-- Every judgement is one of two. A rule that can fire does so. Any
other keeps its state, but for a lock of another hand or session that
it may lose. -/
theorem judge_cases (rule : Rule) (state : RuleState) (snapshot : Snapshot) :
    (rule.CanFire state snapshot ∧
      rule.judge state snapshot =
        ((state.refresh (rule.scope.lock? snapshot.handId)).fire rule
          (rule.scope.lock? snapshot.handId) snapshot.rollIndex, some .fired)) ∨
    (¬ rule.CanFire state snapshot ∧ (rule.judge state snapshot).2 ≠ some .fired ∧
      ((rule.judge state snapshot).1 = state ∨
        (∀ lock, rule.scope.lock? snapshot.handId = some lock → state.lock ≠ some lock) ∧
        (rule.judge state snapshot).1 =
          state.refresh (rule.scope.lock? snapshot.handId))) := by
  -- The tests in the order of the judgement; each that fails ends it.
  by_cases hidle : (state.disabled || rule.trigger != some snapshot.event) = true
  · have hjudge : rule.judge state snapshot = (state, none) := if_pos hidle
    rw [hjudge]
    refine .inr ⟨fun hcan => ?_, by simp, .inl rfl⟩
    simp [hcan.1, hcan.2.1] at hidle
  have hlive := hidle
  simp only [Bool.or_eq_true, not_or, Bool.not_eq_true, bne_eq_false_iff_eq] at hlive
  obtain ⟨hdisabled, htrigger⟩ := hlive
  by_cases hlocked : ((rule.scope.lock? snapshot.handId).isSome &&
      state.lock == rule.scope.lock? snapshot.handId) = true
  · have hjudge : rule.judge state snapshot = (state, some .scopeLocked) :=
      (if_neg hidle).trans (if_pos hlocked)
    simp only [Bool.and_eq_true, Option.isSome_iff_exists, beq_iff_eq] at hlocked
    obtain ⟨⟨lock, hkey⟩, hlock⟩ := hlocked
    rw [hjudge]
    exact .inr ⟨fun hcan => hcan.2.2.1 lock hkey (hlock.trans hkey), by simp, .inl rfl⟩
  have hfree : ∀ lock, rule.scope.lock? snapshot.handId = some lock →
      state.lock ≠ some lock := by
    intro lock hkey hlock
    exact hlocked (by simp [hkey, hlock])
  by_cases hresting : 0 < state.resting
  · have hrefreshed : 0 < (state.refresh (rule.scope.lock? snapshot.handId)).resting := by
      rwa [RuleState.resting_refresh]
    have hjudge : rule.judge state snapshot =
        (state.refresh (rule.scope.lock? snapshot.handId), some (.resting
          (state.refresh (rule.scope.lock? snapshot.handId)).resting)) :=
      (if_neg hidle).trans ((if_neg hlocked).trans (if_pos hrefreshed))
    rw [hjudge]
    refine .inr ⟨fun hcan => ?_, by simp, .inr ⟨hfree, rfl⟩⟩
    have hzero := hcan.2.2.2.1
    omega
  have hrested : state.resting = 0 := by omega
  rcases judge_of_rested hdisabled htrigger hfree hrested with
    ⟨hguard, hjudge⟩ | ⟨hguard, hquiet, hstate⟩
  · exact .inl ⟨⟨hdisabled, htrigger, hfree, hrested, hguard⟩, hjudge⟩
  · exact .inr ⟨fun hcan => hguard hcan.2.2.2.2, hquiet, .inr ⟨hfree, hstate⟩⟩

/-- A rule is only blocked by a lock that it has for the present hand
or session. -/
theorem lock_of_scopeLocked {rule : Rule} {state : RuleState} {snapshot : Snapshot}
    (h : (rule.judge state snapshot).2 = some .scopeLocked) :
    ∃ lock, rule.scope.lock? snapshot.handId = some lock ∧ state.lock = some lock := by
  unfold judge at h
  dsimp only at h
  split at h
  · cases h
  · split at h
    · rename_i hlocked
      simp only [Bool.and_eq_true, Option.isSome_iff_exists, beq_iff_eq] at hlocked
      obtain ⟨⟨lock, hkey⟩, hlock⟩ := hlocked
      exact ⟨lock, hkey, hlock.trans hkey⟩
    · -- Any other way through the judgement ends in another verdict.
      split at h
      · cases h
      · split at h
        · cases h
        · split at h <;> cases h

/-- The lock of a rule after a judgement: that of the snapshot if it
fires, and otherwise none or the one that it had. -/
theorem lock_judge (rule : Rule) (state : RuleState) (snapshot : Snapshot) :
    ((rule.judge state snapshot).2 = some .fired ∧
      (rule.judge state snapshot).1.lock = (rule.scope.lock? snapshot.handId).or state.lock) ∨
    ((rule.judge state snapshot).2 ≠ some .fired ∧
      ((rule.judge state snapshot).1.lock = none ∨
        (rule.judge state snapshot).1.lock = state.lock)) := by
  rcases judge_cases rule state snapshot with ⟨_, hjudge⟩ | ⟨_, hquiet, hstate⟩
  · rw [hjudge]
    refine .inl ⟨rfl, ?_⟩
    show (rule.scope.lock? snapshot.handId).or (state.refresh _).lock = _
    cases hkey : rule.scope.lock? snapshot.handId with
    | none => rfl
    | some lock => rfl
  · refine .inr ⟨hquiet, ?_⟩
    rcases hstate with hsame | ⟨_, hrefreshed⟩
    · exact .inr (by rw [hsame])
    · rw [hrefreshed]
      unfold RuleState.refresh
      split
      · exact .inl rfl
      · exact .inr rfl

/-! ### The history of one rule -/

/-- The state of a rule after some passes. -/
def stateAfter (rule : Rule) (passes : List Snapshot) : RuleState :=
  passes.foldl (fun state snapshot => (rule.judge state.tick snapshot).1) .fresh

/-- Whether a rule fires at a snapshot that follows some passes. -/
def FiresNext (rule : Rule) (passes : List Snapshot) (snapshot : Snapshot) : Prop :=
  (rule.judge (rule.stateAfter passes).tick snapshot).2 = some .fired

/-- Whether a rule fired in a pass. -/
def FiredAt (rule : Rule) (passes : List Snapshot) (j : Nat) : Prop :=
  ∃ snapshot, passes[j]? = some snapshot ∧ rule.FiresNext (passes.take j) snapshot

/-- One more pass is a tick and a judgement. -/
theorem stateAfter_snoc (rule : Rule) (passes : List Snapshot) (snapshot : Snapshot) :
    rule.stateAfter (passes ++ [snapshot]) =
      (rule.judge (rule.stateAfter passes).tick snapshot).1 := by
  simp [stateAfter]

/-- A fire is in one of the passes. -/
theorem FiredAt.lt_length {rule : Rule} {passes : List Snapshot} {j : Nat}
    (h : rule.FiredAt passes j) : j < passes.length := by
  obtain ⟨snapshot, hget, _⟩ := h
  exact (List.getElem?_eq_some_iff.1 hget).1

/-- A fire in a prefix of the passes is a fire before its end. -/
theorem firedAt_take (rule : Rule) (passes : List Snapshot) {k j : Nat} (hk : k ≤ passes.length) :
    rule.FiredAt (passes.take k) j ↔ j < k ∧ rule.FiredAt passes j := by
  constructor
  · intro h
    have hj : j < k := by
      have hlt := h.lt_length
      rw [List.length_take] at hlt
      omega
    obtain ⟨snapshot, hget, hfires⟩ := h
    rw [List.getElem?_take_of_lt hj] at hget
    rw [List.take_take, Nat.min_eq_left (Nat.le_of_lt hj)] at hfires
    exact ⟨hj, snapshot, hget, hfires⟩
  · rintro ⟨hj, snapshot, hget, hfires⟩
    refine ⟨snapshot, ?_, ?_⟩
    · rwa [List.getElem?_take_of_lt hj]
    · rwa [List.take_take, Nat.min_eq_left (Nat.le_of_lt hj)]

/-- One more pass adds at most one fire, its own. -/
theorem firedAt_snoc (rule : Rule) (passes : List Snapshot) (snapshot : Snapshot) (j : Nat) :
    rule.FiredAt (passes ++ [snapshot]) j ↔
      rule.FiredAt passes j ∨ j = passes.length ∧ rule.FiresNext passes snapshot := by
  rcases Nat.lt_trichotomy j passes.length with hlt | heq | hgt
  · -- The earlier passes are a prefix, and a fire reads no more than that.
    have hearlier := firedAt_take rule (passes ++ [snapshot]) (k := passes.length) (j := j)
      (by simp)
    rw [List.take_left] at hearlier
    rw [hearlier]
    have hne : j ≠ passes.length := by omega
    simp [hlt, hne]
  · subst heq
    simp [FiredAt]
  · have hold : ¬ rule.FiredAt passes j := fun h => absurd h.lt_length (by omega)
    have hnew : ¬ rule.FiredAt (passes ++ [snapshot]) j := by
      intro h
      have hlt := h.lt_length
      simp only [List.length_append, List.length_singleton] at hlt
      omega
    have hne : j ≠ passes.length := by omega
    simp [hold, hnew, hne]

/-! ### The invariant -/

/-- The state of a rule as a record of its past fires. `disabled` and
`lock` remember that there was one, `resting` how far the last one is
away. -/
structure Recalls (rule : Rule) (passes : List Snapshot) (state : RuleState) : Prop where
  disabled_iff : state.disabled = true ↔ rule.once = true ∧ ∃ j, rule.FiredAt passes j
  resting_iff : ∀ m, m < state.tick.resting ↔
    ∃ j, rule.FiredAt passes j ∧ passes.length + m ≤ j + rule.cooldown
  session : rule.scope = .session →
    (state.lock = some .session ↔ ∃ j, rule.FiredAt passes j)
  hand_sound : rule.scope = .hand → ∀ hand, state.lock = some (.hand hand) →
    ∃ j past, rule.FiredAt passes j ∧ passes[j]? = some past ∧ past.handId = hand
  /-- The lock is that of the fire, or a later hand has come. -/
  hand_complete : rule.scope = .hand → ∀ j past, rule.FiredAt passes j →
    passes[j]? = some past →
    state.lock = some (.hand past.handId) ∨ ∃ later ∈ passes, past.handId < later.handId

/-- A rule that has never fired recalls no fire. -/
theorem recalls_fresh (rule : Rule) : rule.Recalls [] .fresh where
  disabled_iff := by simp [RuleState.fresh, FiredAt]
  resting_iff := by simp [RuleState.fresh, RuleState.tick, FiredAt]
  session := by simp [RuleState.fresh, FiredAt]
  hand_sound := by simp [RuleState.fresh]
  hand_complete := by simp [FiredAt]

/-- The lock that the scope asks for at a snapshot is taken exactly
when the law forbids a fire: after any fire in the session scope,
after a fire in the same hand in the hand scope. -/
theorem locked_iff {rule : Rule} {passes : List Snapshot} {state : RuleState}
    {snapshot : Snapshot} (hrec : rule.Recalls passes state)
    (hasc : HandsAscend (passes ++ [snapshot])) :
    (∃ lock, rule.scope.lock? snapshot.handId = some lock ∧ state.lock = some lock) ↔
      (rule.scope = .session ∧ ∃ j, rule.FiredAt passes j) ∨
      (rule.scope = .hand ∧ ∃ j past, rule.FiredAt passes j ∧ passes[j]? = some past ∧
        past.handId = snapshot.handId) := by
  cases hscope : rule.scope with
  | roll => simp [RuleScope.lock?]
  | session => simp [RuleScope.lock?, hrec.session hscope]
  | hand =>
    simp only [RuleScope.lock?, Option.some.injEq, exists_eq_left', reduceCtorEq, false_and,
      true_and, false_or]
    constructor
    · exact hrec.hand_sound hscope snapshot.handId
    · rintro ⟨j, past, hfired, hget, hsame⟩
      rcases hrec.hand_complete hscope j past hfired hget with hlock | ⟨later, hmem, hlater⟩
      · rw [hlock, hsame]
      · -- A later hand would be above the one of the snapshot.
        have hle := hasc.le_next hmem
        omega

/-- With a state that recalls the past, a rule can fire exactly when
the law allows it. -/
theorem canFire_iff_firingLaw {rule : Rule} {passes : List Snapshot} {state : RuleState}
    {snapshot : Snapshot} (hrec : rule.Recalls passes state)
    (hasc : HandsAscend (passes ++ [snapshot])) :
    rule.CanFire state.tick snapshot ↔
      FiringLaw rule passes (rule.FiredAt passes) passes.length snapshot := by
  have hlocked := locked_iff hrec hasc
  have hdisabled := hrec.disabled_iff
  have hresting := hrec.resting_iff 0
  constructor
  · rintro ⟨hlive, htrigger, hfree, hzero, hguard⟩
    change state.disabled = false at hlive
    change ∀ lock, _ → state.lock ≠ some lock at hfree
    refine ⟨htrigger, hguard, fun j _ hfired => ?_, fun hsingle j _ hfired => ?_,
      fun hscope j _ hfired past hget hsame => ?_⟩
    · -- A fire within the cooldown would still have the rule resting.
      by_contra hlong
      have hstill := hresting.2 ⟨j, hfired, by omega⟩
      omega
    · -- Of the two kinds of single fire one disables and the other locks.
      rcases hsingle with honce | hsession
      · have hoff := hdisabled.2 ⟨honce, j, hfired⟩
        simp [hlive] at hoff
      · obtain ⟨lock, hkey, hlock⟩ := hlocked.2 (.inl ⟨hsession, j, hfired⟩)
        exact hfree lock hkey hlock
    · obtain ⟨lock, hkey, hlock⟩ := hlocked.2 (.inr ⟨hscope, j, past, hfired, hget, hsame⟩)
      exact hfree lock hkey hlock
  · intro hlaw
    refine ⟨?_, hlaw.triggered, ?_, ?_, hlaw.guarded⟩
    · rw [← Bool.not_eq_true]
      intro hoff
      obtain ⟨honce, j, hfired⟩ := hdisabled.1 hoff
      exact hlaw.single (.inl honce) j hfired.lt_length hfired
    · intro lock hkey hlock
      rcases hlocked.1 ⟨lock, hkey, hlock⟩ with ⟨hscope, j, hfired⟩ |
        ⟨hscope, j, past, hfired, hget, hsame⟩
      · exact hlaw.single (.inr hscope) j hfired.lt_length hfired
      · exact hlaw.newHand hscope j hfired.lt_length hfired past hget hsame
    · by_contra hpositive
      obtain ⟨j, hfired, hlong⟩ := hresting.1 (by omega)
      have hover := hlaw.rested j hfired.lt_length hfired
      omega

/-- A fire keeps the invariant: it writes all four fields, and the
last pass joins the past fires. -/
theorem Recalls.fire {rule : Rule} {passes : List Snapshot} {state : RuleState}
    {snapshot : Snapshot} (hrec : rule.Recalls passes state)
    (hcooldown : rule.cooldown < 4294967295)
    (hasc : HandsAscend (passes ++ [snapshot])) (hcan : rule.CanFire state.tick snapshot)
    (hfired : ∀ j, rule.FiredAt (passes ++ [snapshot]) j ↔
      rule.FiredAt passes j ∨ j = passes.length) :
    rule.Recalls (passes ++ [snapshot])
      ((state.tick.refresh (rule.scope.lock? snapshot.handId)).fire rule
        (rule.scope.lock? snapshot.handId) snapshot.rollIndex) := by
  have hlast : rule.FiredAt (passes ++ [snapshot]) passes.length := (hfired _).2 (.inr rfl)
  constructor
  case disabled_iff =>
    have hlive : state.disabled = false := hcan.1
    have hsome : ∃ j, rule.FiredAt (passes ++ [snapshot]) j := ⟨_, hlast⟩
    simp [RuleState.fire, RuleState.tick, hlive, hsome]
  case resting_iff =>
    -- The rule was at rest no more, so this fire alone decides how long it rests.
    intro m
    have hzero : (state.tick.refresh (rule.scope.lock? snapshot.handId)).resting = 0 :=
      (RuleState.resting_refresh _ _).trans hcan.2.2.2.1
    have hlen : (passes ++ [snapshot]).length = passes.length + 1 := by simp
    rw [RuleState.resting_tick_fire hzero hcooldown, hlen]
    constructor
    · intro hm
      exact ⟨passes.length, hlast, by omega⟩
    · rintro ⟨j, hj, hlong⟩
      have hlt := hj.lt_length
      omega
  case session =>
    intro hscope
    have hsome : ∃ j, rule.FiredAt (passes ++ [snapshot]) j := ⟨_, hlast⟩
    simp [RuleState.fire, RuleScope.lock?, hscope, hsome]
  case hand_sound =>
    intro hscope hand hlock
    refine ⟨passes.length, snapshot, hlast, by simp, ?_⟩
    simpa [RuleState.fire, RuleScope.lock?, hscope] using hlock
  case hand_complete =>
    intro hscope j past hj hget
    rcases (hfired j).1 hj with hold | rfl
    · -- An earlier fire was in another hand, and that hand is over.
      right
      rw [List.getElem?_append_left hold.lt_length] at hget
      have hne := ((canFire_iff_firingLaw hrec hasc).1 hcan).newHand hscope j hold.lt_length
        hold past hget
      have hle := hasc.le_next (List.mem_of_getElem? hget)
      exact ⟨snapshot, by simp, by omega⟩
    · left
      have hpast : snapshot = past := by simpa using hget
      simp [RuleState.fire, RuleScope.lock?, hscope, hpast]

/-- Any other judgement keeps the invariant. The lock stays, or it was
one of another hand or session and goes. -/
theorem Recalls.keep {rule : Rule} {passes : List Snapshot} {state next : RuleState}
    {snapshot : Snapshot} (hrec : rule.Recalls passes state)
    (hasc : HandsAscend (passes ++ [snapshot]))
    (hfired : ∀ j, rule.FiredAt (passes ++ [snapshot]) j ↔ rule.FiredAt passes j)
    (hdisabled : next.disabled = state.disabled) (hresting : next.resting = state.tick.resting)
    (hlock : next.lock = state.lock ∨ next.lock = none ∧
      ∀ lock, rule.scope.lock? snapshot.handId = some lock → state.lock ≠ some lock) :
    rule.Recalls (passes ++ [snapshot]) next := by
  have hget : ∀ j, rule.FiredAt passes j → (passes ++ [snapshot])[j]? = passes[j]? :=
    fun j hj => List.getElem?_append_left hj.lt_length
  constructor
  case disabled_iff => simp only [hdisabled, hrec.disabled_iff, hfired]
  case resting_iff =>
    -- One pass later is one pass less of rest.
    intro m
    have hlater := hrec.resting_iff (m + 1)
    simp only [RuleState.tick, hresting, hfired, List.length_append, List.length_singleton]
      at hlater ⊢
    rw [Nat.lt_sub_iff_add_lt, hlater, Nat.add_right_comm passes.length 1 m]
    rfl
  case session =>
    intro hscope
    have hsession := hrec.session hscope
    rcases hlock with hsame | ⟨hnone, hfree⟩
    · simp only [hsame, hsession, hfired]
    · have hopen : state.lock ≠ some .session := hfree _ (by simp [RuleScope.lock?, hscope])
      simp only [hnone, hfired, ← hsession, hopen, reduceCtorEq]
  case hand_sound =>
    intro hscope hand hkey
    rcases hlock with hsame | ⟨hnone, _⟩
    · obtain ⟨j, past, hj, hpast, hhand⟩ := hrec.hand_sound hscope hand (hsame ▸ hkey)
      exact ⟨j, past, (hfired j).2 hj, (hget j hj).trans hpast, hhand⟩
    · rw [hnone] at hkey
      cases hkey
  case hand_complete =>
    intro hscope j past hj hpast
    have hold := (hfired j).1 hj
    rw [hget j hold] at hpast
    rcases hrec.hand_complete hscope j past hold hpast with hkey | ⟨later, hmem, hlater⟩
    · rcases hlock with hsame | ⟨hnone, hfree⟩
      · exact .inl (hsame.trans hkey)
      · -- The lock went, so the snapshot is of a later hand.
        have hne : past.handId ≠ snapshot.handId := fun heq =>
          hfree (.hand snapshot.handId) (by simp [RuleScope.lock?, hscope]) (heq ▸ hkey)
        have hle := hasc.le_next (List.mem_of_getElem? hpast)
        exact .inr ⟨snapshot, by simp, by omega⟩
    · exact .inr ⟨later, List.mem_append_left _ hmem, hlater⟩

/-- One pass keeps the invariant. -/
theorem recalls_snoc {rule : Rule} {passes : List Snapshot} {snapshot : Snapshot}
    (hrec : rule.Recalls passes (rule.stateAfter passes))
    (hcooldown : rule.cooldown < 4294967295) (hasc : HandsAscend (passes ++ [snapshot])) :
    rule.Recalls (passes ++ [snapshot]) (rule.stateAfter (passes ++ [snapshot])) := by
  have hsnoc := firedAt_snoc rule passes snapshot
  rw [stateAfter_snoc]
  rcases judge_cases rule (rule.stateAfter passes).tick snapshot with
    ⟨hcan, hjudge⟩ | ⟨_, hquiet, hstate⟩
  · -- The rule fires, and this pass is the one new fire.
    rw [hjudge]
    have hfires : rule.FiresNext passes snapshot := by simp [FiresNext, hjudge]
    exact hrec.fire hcooldown hasc hcan fun j => by rw [hsnoc]; simp [hfires]
  · have hsame : ∀ j, rule.FiredAt (passes ++ [snapshot]) j ↔ rule.FiredAt passes j := by
      intro j
      rw [hsnoc]
      simp [show ¬ rule.FiresNext passes snapshot from hquiet]
    rcases hstate with hstate | ⟨hfree, hstate⟩
    · rw [hstate]
      exact hrec.keep hasc hsame rfl rfl (.inl rfl)
    · rw [hstate]
      refine hrec.keep hasc hsame (RuleState.disabled_refresh _ _)
        (RuleState.resting_refresh _ _) ?_
      unfold RuleState.refresh
      split
      · exact .inr ⟨rfl, hfree⟩
      · exact .inl rfl

/-- The state of a rule recalls its fires after any passes in
ascending hands. -/
theorem recalls_stateAfter {rule : Rule} (hcooldown : rule.cooldown < 4294967295)
    (passes : List Snapshot) (hasc : HandsAscend passes) :
    rule.Recalls passes (rule.stateAfter passes) := by
  induction passes using List.reverseRecOn with
  | nil => exact rule.recalls_fresh
  | append_singleton passes snapshot ih =>
    exact recalls_snoc (ih (List.pairwise_append.1 hasc).1) hcooldown hasc

/-- A rule with the greatest cooldown never rests, so it may fire in two
passes in a row. This is why the law leaves that cooldown out. -/
theorem resting_stateAfter_greatest {rule : Rule} (hcooldown : rule.cooldown = 4294967295)
    (passes : List Snapshot) : (rule.stateAfter passes).resting = 0 := by
  induction passes using List.reverseRecOn with
  | nil => rfl
  | append_singleton passes snapshot ih =>
    have htick : (rule.stateAfter passes).tick.resting = 0 := by simp [RuleState.tick, ih]
    rw [stateAfter_snoc]
    rcases judge_cases rule (rule.stateAfter passes).tick snapshot with
      ⟨_, hjudge⟩ | ⟨_, _, hsame | ⟨_, hrefreshed⟩⟩
    · rw [hjudge]
      exact RuleState.resting_fire_greatest _ hcooldown _ _
    · rw [hsame, htick]
    · rw [hrefreshed, RuleState.resting_refresh, htick]

/-- The law for one rule: it fires at a snapshot after some passes
exactly when the law allows it. -/
theorem firesNext_iff {rule : Rule} {passes : List Snapshot} {snapshot : Snapshot}
    (hcooldown : rule.cooldown < 4294967295)
    (hasc : HandsAscend (passes ++ [snapshot])) :
    rule.FiresNext passes snapshot ↔
      FiringLaw rule passes (rule.FiredAt passes) passes.length snapshot := by
  have hrec := recalls_stateAfter hcooldown passes (List.pairwise_append.1 hasc).1
  rw [← canFire_iff_firingLaw hrec hasc]
  rcases judge_cases rule (rule.stateAfter passes).tick snapshot with
    ⟨hcan, hjudge⟩ | ⟨hcannot, hquiet, _⟩
  · simp [FiresNext, hjudge, hcan]
  · simp [FiresNext, hquiet, hcannot]

/-- The law for one rule over a whole run. -/
theorem firedAt_iff_firingLaw {rule : Rule} (hcooldown : rule.cooldown < 4294967295)
    {passes : List Snapshot} (hasc : HandsAscend passes) (k : Nat) :
    rule.FiredAt passes k ↔ ∃ snapshot, passes[k]? = some snapshot ∧
      FiringLaw rule passes (rule.FiredAt passes) k snapshot := by
  refine exists_congr fun snapshot => and_congr_right fun hget => ?_
  obtain ⟨hk, hat⟩ := List.getElem?_eq_some_iff.1 hget
  -- Pass `k` is the next one after the first `k`, where the law is known.
  have hlen : (passes.take k).length = k := by
    rw [List.length_take, Nat.min_eq_left (Nat.le_of_lt hk)]
  have hearlier : HandsAscend (passes.take k ++ [snapshot]) := by
    rw [← hat, List.take_append_getElem]
    exact hasc.sublist (List.take_sublist _ _)
  rw [firesNext_iff hcooldown hearlier, hlen]
  have hpasses : ∀ j < k, (passes.take k)[j]? = passes[j]? := fun j hj =>
    List.getElem?_take_of_lt hj
  have hfired : ∀ j < k, (rule.FiredAt (passes.take k) j ↔ rule.FiredAt passes j) := by
    intro j hj
    rw [firedAt_take rule passes (Nat.le_of_lt hk)]
    simp [hj]
  exact ⟨FiringLaw.congr hpasses hfired,
    FiringLaw.congr (fun j hj => (hpasses j hj).symm) (fun j hj => (hfired j hj).symm)⟩

end Rule

/-! ### The rules of an engine -/

/-- A rule after one pass, and the verdict on it. -/
def ArmedRule.judged (armed : ArmedRule) (snapshot : Snapshot) : RuleEngine.Judged :=
  { armed := { armed with state := (armed.rule.judge armed.state.tick snapshot).1 }
    verdict := (armed.rule.judge armed.state.tick snapshot).2 }

namespace RuleEngine

/-- Records of the trace change no rule and no state. -/
@[simp]
theorem armed_addRecords (engine : RuleEngine) (records : List TraceRecord) :
    (engine.addRecords records).armed = engine.armed := by
  unfold addRecords
  split <;> rfl

/-- In a pass every rule is judged on its own, one tick later. -/
theorem judgeAll_tick (engine : RuleEngine) (snapshot : Snapshot) :
    engine.tick.judgeAll snapshot = engine.armed.map fun armed => armed.judged snapshot := by
  simp only [judgeAll, tick, List.map_map]
  rfl

/-- A pass changes the state of each rule by one tick and one
judgement, and leaves the rules as they are. -/
theorem armed_pass (engine : RuleEngine) (snapshot : Snapshot) :
    (engine.pass snapshot).1.armed =
      engine.armed.map fun armed => (armed.judged snapshot).armed := by
  simp only [pass, evaluate, judgeAll_tick, armed_addRecords, List.map_map]
  rfl

/-- An engine has the rules that it is made of, in their order. -/
@[simp]
theorem rules_ofRules (rules : List Rule) : (ofRules rules).rules = rules := by
  rw [ofRules, RuleEngine.rules, List.map_map]
  exact List.map_id rules

/-- A pass changes states and no rules. -/
@[simp]
theorem rules_pass (engine : RuleEngine) (snapshot : Snapshot) :
    (engine.pass snapshot).1.rules = engine.rules := by
  rw [rules, armed_pass, List.map_map]
  rfl

/-- The positions that fire at a snapshot, as a part of all
positions. -/
theorem evaluate_snd (engine : RuleEngine) (snapshot : Snapshot) :
    (engine.evaluate snapshot).2 =
      (((engine.judgeAll snapshot).zipIdx.filter fun entry => entry.1.hasFired).map Prod.snd) := by
  rw [← List.filterMap_eq_map (f := Prod.snd), List.filterMap_filter]
  rfl

/-- The positions that fire are those of the rules whose judgement says
so. -/
theorem mem_evaluate_iff (engine : RuleEngine) (snapshot : Snapshot) (position : Nat) :
    position ∈ (engine.evaluate snapshot).2 ↔ ∃ armed, engine.armed[position]? = some armed ∧
      (armed.rule.judge armed.state snapshot).2 = some .fired := by
  simp [evaluate_snd, judgeAll, List.mem_zipIdx_iff_getElem?, Judged.hasFired]

/-- The positions that fire in a pass are those of the rules that are
judged to, one tick later. -/
theorem mem_pass_iff (engine : RuleEngine) (snapshot : Snapshot) (position : Nat) :
    position ∈ (engine.pass snapshot).2 ↔ ∃ armed, engine.armed[position]? = some armed ∧
      (armed.rule.judge armed.state.tick snapshot).2 = some .fired := by
  rw [pass, mem_evaluate_iff]
  simp [tick]

/-- The positions that fire in a pass come in ascending order. -/
theorem pass_pairwise (engine : RuleEngine) (snapshot : Snapshot) :
    (engine.pass snapshot).2.Pairwise (· < ·) := by
  rw [pass, evaluate_snd]
  refine List.Pairwise.sublist (List.filter_sublist.map Prod.snd) ?_
  rw [List.zipIdx_map_snd]
  exact List.pairwise_lt_range'

/-- After some passes each rule is in the state that it reaches on its
own. -/
theorem armed_afterPasses (rules : List Rule) (traced : Bool) (passes : List Snapshot) :
    (((ofRules rules).withTrace traced).afterPasses passes).armed =
      rules.map fun rule => { rule, state := rule.stateAfter passes } := by
  induction passes using List.reverseRecOn with
  | nil => rfl
  | append_singleton passes snapshot ih =>
    have hsnoc : ((ofRules rules).withTrace traced).afterPasses (passes ++ [snapshot]) =
        ((((ofRules rules).withTrace traced).afterPasses passes).pass snapshot).1 := by
      simp [afterPasses]
    rw [hsnoc, armed_pass, ih, List.map_map]
    simp only [Function.comp_def, ArmedRule.judged, Rule.stateAfter_snoc]

/-- Each pass has its entry in the log. -/
theorem length_firings (engine : RuleEngine) (passes : List Snapshot) :
    (engine.firings passes).length = passes.length := by
  induction passes generalizing engine with
  | nil => rfl
  | cons snapshot rest ih => simp [firings, ih]

/-- The log of a pass is that of the engine after the passes before
it. -/
theorem firings_getElem? (engine : RuleEngine) (passes : List Snapshot) (k : Nat) :
    (engine.firings passes)[k]? =
      passes[k]?.map fun snapshot => ((engine.afterPasses (passes.take k)).pass snapshot).2 := by
  induction passes generalizing engine k with
  | nil => rfl
  | cons snapshot rest ih =>
    cases k with
    | zero => rfl
    | succ k =>
      simp only [firings, List.getElem?_cons_succ, ih, List.take_succ_cons]
      rfl

/-- The log of an engine holds the fires of each of its rules. -/
theorem firedIn_firings_iff (rules : List Rule) (traced : Bool) (passes : List Snapshot)
    (position pass : Nat) :
    FiredIn (((ofRules rules).withTrace traced).firings passes) position pass ↔
      ∃ rule, rules[position]? = some rule ∧ rule.FiredAt passes pass := by
  simp only [FiredIn, firings_getElem?, Option.map_eq_some_iff]
  constructor
  · rintro ⟨_, ⟨snapshot, hget, rfl⟩, hmem⟩
    obtain ⟨armed, harmed, hfired⟩ := (mem_pass_iff _ _ _).1 hmem
    rw [armed_afterPasses, List.getElem?_map, Option.map_eq_some_iff] at harmed
    obtain ⟨rule, hrule, rfl⟩ := harmed
    exact ⟨rule, hrule, snapshot, hget, hfired⟩
  · rintro ⟨rule, hrule, snapshot, hget, hfires⟩
    refine ⟨_, ⟨snapshot, hget, rfl⟩, (mem_pass_iff _ _ _).2 ?_⟩
    refine ⟨{ rule, state := rule.stateAfter (passes.take pass) }, ?_, hfires⟩
    rw [armed_afterPasses, List.getElem?_map, hrule, Option.map_some]

end RuleEngine

/-- The firing law. Each pass of an engine logs its fires in ascending
order, and a rule is in the log of a pass exactly when the law allows
it, given the log of the passes before. The trace makes no
difference. -/
theorem firings_iff_firingLaw (rules : List Rule) (traced : Bool) (passes : List Snapshot)
    (hcooldown : ∀ rule ∈ rules, rule.cooldown < 4294967295) (hasc : HandsAscend passes) :
    let log := ((RuleEngine.ofRules rules).withTrace traced).firings passes
    log.length = passes.length ∧ (∀ fired ∈ log, fired.Pairwise (· < ·)) ∧
      ∀ pass position, FiredIn log position pass ↔
        ∃ rule snapshot, rules[position]? = some rule ∧ passes[pass]? = some snapshot ∧
          FiringLaw rule passes (FiredIn log position) pass snapshot := by
  intro log
  refine ⟨RuleEngine.length_firings _ _, ?_, fun pass position => ?_⟩
  · intro fired hmem
    obtain ⟨k, hget⟩ := List.mem_iff_getElem?.1 hmem
    rw [RuleEngine.firings_getElem?, Option.map_eq_some_iff] at hget
    obtain ⟨snapshot, _, rfl⟩ := hget
    exact RuleEngine.pass_pairwise _ _
  · have hlog := RuleEngine.firedIn_firings_iff rules traced passes position
    rw [hlog]
    refine exists_congr fun rule => ?_
    rw [exists_and_left]
    refine and_congr_right fun hrule => ?_
    -- At this position the log is the history of this rule.
    have hown : ∀ j, FiredIn log position j ↔ rule.FiredAt passes j := by
      intro j
      rw [hlog]
      simp [hrule]
    rw [Rule.firedAt_iff_firingLaw (hcooldown rule (List.mem_of_getElem? hrule)) hasc]
    refine exists_congr fun snapshot => and_congr_right fun _ => ?_
    exact ⟨FiringLaw.congr (fun _ _ => rfl) fun j _ => (hown j).symm,
      FiringLaw.congr (fun _ _ => rfl) fun j _ => hown j⟩

/-- A snapshot of an empty table in a hand. -/
def Snapshot.inHand (event : EventKind) (handId : Nat) : Snapshot :=
  { event, bankroll := 0, point := none, onComeout := true, handId, rollInHand := 1,
    rollIndex := 1, rollsSincePoint := 0, lastRoll := none, dice := none, mode := "Main",
    bubble := false, tableLevel := 10, counters := .zero, resolvedBet := none,
    resolvedResult := none, bets := .empty, vars := .empty }

/-- A rule on rolls, without a guard and without steps. -/
def Rule.onRoll (scope : RuleScope) (cooldown : Nat) : Rule :=
  { id := "rule:#1", trigger := some .roll, guard := none, guardText := "", steps := [],
    scope, cooldown, once := false }

/-- Two rolls of a hand and one of the next. A rule of the hand scope
that rests for a pass fires in the first of each hand, a rule of the
session scope only once. -/
theorem firings_two_hands :
    let rules := [Rule.onRoll .hand 1, Rule.onRoll .session 0]
    let passes := [Snapshot.inHand .roll 1, .inHand .roll 1, .inHand .roll 2]
    let log := ((RuleEngine.ofRules rules).withTrace true).firings passes
    (∀ rule ∈ rules, rule.cooldown < 4294967295) ∧ HandsAscend passes ∧
      log = [[0, 1], [], [0]] ∧
      FiringLaw (Rule.onRoll .hand 1) passes (FiredIn log 0) 2 (.inHand .roll 2) ∧
      ¬ FiringLaw (Rule.onRoll .session 0) passes (FiredIn log 1) 2 (.inHand .roll 2) := by
  intro rules passes log
  have hcooldown : ∀ rule ∈ rules, rule.cooldown < 4294967295 := by simp [rules, Rule.onRoll]
  have hasc : HandsAscend passes := by simp [passes, HandsAscend, Snapshot.inHand]
  have hlast : log[2]? = some [0] := rfl
  obtain ⟨_, _, hlaw⟩ := firings_iff_firingLaw rules true passes hcooldown hasc
  refine ⟨hcooldown, hasc, rfl, ?_, fun hsecond => ?_⟩
  · obtain ⟨rule, snapshot, hrule, hget, h⟩ := (hlaw 2 0).1 ⟨[0], hlast, by simp⟩
    cases hrule
    cases hget
    exact h
  · obtain ⟨fired, hget, hmem⟩ := (hlaw 2 1).2 ⟨_, _, rfl, rfl, hsecond⟩
    cases hlast.symm.trans hget
    simp at hmem

end CrapsStrategy
