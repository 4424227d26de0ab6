import CrapsStrategy.Proofs.Binary64.Exact
import CrapsStrategy.Proofs.Template.Render
import CrapsStrategy.Session.Paper

/-!
# `CrapsStrategy.Proofs.Session.Paper`: plans on a paper table

A plan goes through four hands: the template is rendered, the layout
is compared, the changes become envelopes with doubles for amounts,
and the table turns these into whole dollars again. `bets_applyAll`
says that nothing is lost on the way as long as the amounts are at
most 2 ^ 53: the table ends where `Layout.perform` does.

`converges_applyAll` puts this together with what is known of changes
and of rendering. A plan that is carried out leaves the bets that the
template wants, and planning again finds nothing to do.
-/

set_option autoImplicit false

namespace CrapsStrategy

/-- A change to an amount that a double can hold. -/
def BetChange.Exact : BetChange → Prop
  | clear _ => True
  | set _ amount => 0 < amount ∧ amount ≤ 9007199254740992

/-- What the table reads of an envelope that sets a bet. -/
theorem BetChange.envelope_set (mode : String) (working : KeySet) (bet : String) (amount : Int) :
    let e := (set bet amount).envelope mode working
    e.action = .set ∧ e.bet = some bet ∧ e.amount = some (.ofInt amount) := by
  unfold envelope
  dsimp only
  split <;> exact ⟨rfl, rfl, rfl⟩

namespace PaperTable

/-- The whole dollars of an amount that a double can hold. -/
theorem wholeDollars_ofInt {amount : Int} (h : amount.natAbs ≤ 9007199254740992) :
    wholeDollars (some (.ofInt amount)) = amount := by
  show (Binary64.ofInt amount).roundAway.saturate = amount
  rw [Binary64.roundAway_ofInt h, Binary64.saturate_ofInt h]

/-- An envelope on a bet moves that bet to its target. -/
theorem bets_step {e : Envelope} {bet : String} (hmutates : e.action.mutatesBets = true)
    (hbet : e.bet = some bet) (state : PaperTable × ApplyReport) :
    (step state e).1 =
      state.1.moveTo bet (target e.action (state.1.amount bet) (wholeDollars e.amount)) := by
  unfold step
  dsimp only
  rw [if_pos hmutates, hbet]

/-- The envelope of a change changes the table by that change. -/
theorem bets_step_envelope {change : BetChange} (h : change.Exact) (mode : String)
    (working : KeySet) (state : PaperTable × ApplyReport) :
    (step state (change.envelope mode working)).1.bets = change.apply state.1.bets := by
  cases change with
  | clear bet => rfl
  | set bet amount =>
    obtain ⟨haction, hbet, hamount⟩ := BetChange.envelope_set mode working bet amount
    have hwhole : wholeDollars (some (.ofInt amount)) = amount := by
      obtain ⟨hpositive, hbound⟩ := h
      exact wholeDollars_ofInt (by omega)
    rw [bets_step (by rw [haction]; rfl) hbet, haction, hamount, hwhole]
    show (if 0 < amount then _ else _) = _
    rw [if_pos h.1]
    rfl

/-- The envelopes of some changes change the table by these changes. -/
theorem bets_applyAll {changes : List BetChange} (h : ∀ change ∈ changes, change.Exact)
    (mode : String) (working : KeySet) (table : PaperTable) :
    (applyAll table (changes.map (BetChange.envelope mode working))).1.bets =
      table.bets.perform changes := by
  have hfold : ∀ state : PaperTable × ApplyReport,
      ((changes.map (BetChange.envelope mode working)).foldl step state).1.bets =
        state.1.bets.perform changes := by
    induction changes with
    | nil => exact fun _ => rfl
    | cons change rest ih =>
      intro state
      have hrest : ∀ change ∈ rest, change.Exact := fun c hc => h c (List.mem_cons_of_mem _ hc)
      have hchange := bets_step_envelope (h change List.mem_cons_self) mode working state
      rw [List.map_cons, List.foldl_cons, ih hrest, hchange]
      rfl
  exact hfold (table, .empty)

end PaperTable

namespace Plan

variable (table : TableRules) (mode : String) (template : Template) (snapshot : Snapshot)

/-- A plan that is carried out on a paper table leaves the bets that it
wants, and no others that count. Planning again from there finds
nothing to do. The amounts that the plan sets have to survive as
doubles; the layout may be any. -/
theorem converges_applyAll (bankroll : Binary64)
    (hamounts : ∀ bet amount, .set bet amount ∈ (make table mode template snapshot).changes →
      amount ≤ 9007199254740992) :
    let plan := make table mode template snapshot
    let after := (PaperTable.applyAll { bets := snapshot.bets, bankroll } plan.actions).1.bets
    let again := make table mode template { snapshot with bets := after }
    after.live = plan.desired ∧ again.changes = [] ∧ again.actions = [] := by
  intro plan after again
  have hdesired : plan.desired.AllPositive := template.allPositive_render snapshot table
  have hexact : ∀ change ∈ plan.changes, change.Exact := by
    intro change hchange
    cases change with
    | clear bet => trivial
    | set bet amount =>
      exact ⟨Layout.pos_of_set_mem_changes hchange, hamounts bet amount hchange⟩
  have hafter : after = snapshot.bets.perform plan.changes :=
    PaperTable.bets_applyAll hexact mode (template.render snapshot table).working _
  have hlive : after.live = plan.desired := by
    rw [hafter, ← hdesired.live_eq]
    exact Layout.live_perform_changes snapshot.bets plan.desired
  -- The template wants the same bets of the new layout.
  have hsame : again.changes = Layout.changes after plan.desired := by
    show Layout.changes after (template.render { snapshot with bets := after } table).bets = _
    rw [template.render_bets]
    rfl
  have hnone : again.changes = [] := by
    rw [hsame]
    refine Layout.changes_eq_nil fun bet => ?_
    rw [hafter]
    exact Layout.positive?_perform_changes snapshot.bets plan.desired bet
  refine ⟨hlive, hnone, ?_⟩
  show again.changes.map _ = []
  rw [hnone, List.map_nil]

/-- A line bet and a place bet. -/
def sixAndLine : Template :=
  .ofList [("pass", .amount (.number (.ofNat 10))),
    ("place", .nested [("6", .amount (.number (.ofNat 12)))])]

/-- A come-out roll with two bets on the table, and an entry that is
left over. -/
def midSession : Snapshot :=
  { event := .roll, bankroll := .ofNat 300, point := none, onComeout := true, handId := 1
    rollInHand := 1, rollIndex := 1, rollsSincePoint := 0, lastRoll := none, dice := none
    mode := "Main", bubble := false, tableLevel := 10, counters := .zero, resolvedBet := none
    resolvedResult := none, bets := .ofList [("field", -5), ("hard_4", 5), ("place_6", 24)]
    vars := .empty }

/-- One bet comes down, one changes, one goes up. The entry that is
left over stays, and does not count. -/
theorem converges_midSession :
    let rules : TableRules := { bubble := false, level := 10, odds := .ofOption none }
    let plan := make rules "Main" sixAndLine midSession
    let after := (PaperTable.applyAll { bets := midSession.bets, bankroll := .ofNat 300 }
      plan.actions).1.bets
    let again := make rules "Main" sixAndLine { midSession with bets := after }
    plan.changes =
        [.clear "hard_4", .clear "place_6", .set "pass_line" 10, .set "place_6" 12] ∧
      after.entries = [("field", -5), ("pass_line", 10), ("place_6", 12)] ∧
      after.live = plan.desired ∧ again.changes = [] ∧ again.actions = [] := by
  intro rules plan after again
  have hchanges : plan.changes =
      [.clear "hard_4", .clear "place_6", .set "pass_line" 10, .set "place_6" 12] := by
    decide +kernel
  have hafter : after.entries = [("field", -5), ("pass_line", 10), ("place_6", 12)] := by
    decide +kernel
  refine ⟨hchanges, hafter, converges_applyAll rules "Main" sixAndLine midSession _ ?_⟩
  intro bet amount hset
  have hmem : BetChange.set bet amount ∈ plan.changes := hset
  rw [hchanges] at hmem
  simp only [List.mem_cons, List.not_mem_nil, or_false, reduceCtorEq, false_or,
    BetChange.set.injEq] at hmem
  omega

end Plan

end CrapsStrategy
