import CrapsStrategy.Proofs.Session.Paper
import CrapsStrategy.Proofs.Session.Requests
import Mathlib.Algebra.Order.BigOperators.Group.List
import Mathlib.Data.List.Infix

/-!
# `CrapsStrategy.Proofs.Session.Money`: no money is lost on a paper table

A paper table charges the bankroll for what a bet moves by, also when
the bet comes down, so money would be lost if a bet were moved to a
negative amount. Well-formed envelopes do not do that
(`target_nonneg`): their amounts are more than zero, and a bet is not
reduced below nothing.

`Balanced` is the invariant of a table. One envelope keeps it
(`Balanced.step`), as long as the exact amounts, on the layout and in
the bankroll, are within 2 ^ 53, and the report has the change of the
layout to the dollar. From there it goes through all envelopes of a
pass and all passes of a play (`Play.money_conserved`).
-/

set_option autoImplicit false

namespace CrapsStrategy

namespace PaperTable

variable {table : PaperTable}

/-! ### The sum of a layout -/

/-- The money on the layout as a sum. -/
theorem exposure_eq_sum (table : PaperTable) :
    table.exposure = (table.bets.entries.map Prod.snd).sum := by
  rw [exposure, List.sum_eq_foldl, List.foldl_map]

/-- A bet at an amount, instead of what it had. -/
theorem exposure_insert (table : PaperTable) (bet : String) (amount : Int) (bankroll : Binary64) :
    exposure { bets := table.bets.insert bet amount, bankroll } =
      amount + (table.remove bet).exposure := by
  have hperm := (table.bets.perm_insert bet amount).map Prod.snd
  rw [exposure_eq_sum, exposure_eq_sum, hperm.sum_eq, List.map_cons, List.sum_cons]
  rfl

/-- The money without a bet, and the bet. -/
theorem exposure_eq_add_remove (table : PaperTable) (bet : String) :
    table.exposure = table.amount bet + (table.remove bet).exposure := by
  unfold amount
  cases hget : table.bets.get? bet with
  | some amount =>
    have hinsert := table.exposure_insert bet amount table.bankroll
    rw [KeyMap.insert_eq_self hget] at hinsert
    exact hinsert
  | none =>
    have hremove : table.remove bet = table := by
      rw [remove, KeyMap.erase_eq_self hget]
    rw [hremove, Option.getD_none, Int.zero_add]

/-- A bet that moves changes the sum by as much. That holds up to zero
only: below, the bet comes down at no more than it had. -/
theorem exposure_moveTo (table : PaperTable) (bet : String) {target : Int} (h : 0 ≤ target) :
    (table.moveTo bet target).exposure = table.exposure + (target - table.amount bet) := by
  have hsplit := table.exposure_eq_add_remove bet
  have hmoved : (table.moveTo bet target).exposure = target + (table.remove bet).exposure := by
    unfold moveTo
    split
    · exact table.exposure_insert bet target _
    · -- A bet that comes down was moved to nothing.
      have hzero : target = 0 := by omega
      rw [hzero, Int.zero_add]
      rfl
  omega

/-- Positive bets add up to no debt. -/
theorem exposure_nonneg (h : table.bets.AllPositive) : 0 ≤ table.exposure := by
  rw [exposure_eq_sum]
  refine List.sum_nonneg fun amount hamount => ?_
  obtain ⟨⟨bet, _⟩, hentry, rfl⟩ := List.mem_map.1 hamount
  exact (h bet _ ((table.bets.mem_entries_iff _ _).1 hentry)).le

/-- Bets stay positive when one comes down. -/
theorem allPositive_remove (h : table.bets.AllPositive) (bet : String) :
    (table.remove bet).bets.AllPositive :=
  Layout.Every.erase (p := fun amount => 0 < amount) h bet

/-- Bets stay positive when one moves: at nothing or below it comes
down. -/
theorem allPositive_moveTo (h : table.bets.AllPositive) (bet : String) (target : Int) :
    (table.moveTo bet target).bets.AllPositive := by
  unfold moveTo
  dsimp only
  split
  · rename_i htarget
    exact Layout.Every.insert (p := fun amount => 0 < amount) h bet htarget
  · exact allPositive_remove h bet

/-- No bet is more than what is on the layout. -/
theorem amount_mem (h : table.bets.AllPositive) (bet : String) :
    0 ≤ table.amount bet ∧ table.amount bet ≤ table.exposure := by
  have hsplit := table.exposure_eq_add_remove bet
  have hrest : 0 ≤ (table.remove bet).exposure := exposure_nonneg (allPositive_remove h bet)
  refine ⟨?_, by omega⟩
  unfold amount
  cases hget : table.bets.get? bet with
  | none => exact Int.le_refl 0
  | some amount => exact (h bet amount hget).le

/-! ### One envelope -/

/-- The whole dollars of an amount that is more than zero. -/
theorem wholeDollars_nonneg {amount : Option Binary64}
    (h : ∀ x, amount = some x → Binary64.less 0 x = true) : 0 ≤ wholeDollars amount := by
  cases amount with
  | none => exact Int.le_refl 0
  | some x =>
    have hsign : x.roundAway.isNegative = false := by
      rw [Binary64.isNegative_roundAway, Binary64.isNegative_of_less_zero (h x rfl)]
    exact Binary64.saturate_nonneg hsign

/-- No envelope moves a bet below zero. -/
theorem target_nonneg (action : ActionKind) {current amount : Int} (hcurrent : 0 ≤ current)
    (hamount : 0 ≤ amount) : 0 ≤ target action current amount := by
  cases action <;> simp only [target] <;> omega

/-- What a well-formed envelope does to a table: nothing, or it moves a
bet to an amount that is not below zero, and reports what that takes. -/
theorem moves_of_step (h : table.bets.AllPositive) (report : ApplyReport) {e : Envelope}
    (hwell : e.WellFormed) :
    ((step (table, report) e).1 = table ∧ (step (table, report) e).2.net = report.net) ∨
      ∃ bet target, 0 ≤ target ∧ (step (table, report) e).1 = table.moveTo bet target ∧
        (step (table, report) e).2.net = report.net.add (table.cost bet target) := by
  unfold step
  dsimp only
  split
  · cases hbet : e.bet with
    | none => exact .inl ⟨rfl, rfl⟩
    | some bet =>
      have hcurrent := (amount_mem h bet).1
      have hdollars := wholeDollars_nonneg fun x hx => (hwell.positive x hx).2
      exact .inr ⟨bet, _, target_nonneg e.action hcurrent hdollars, rfl, rfl⟩
  · exact .inl ⟨rfl, rfl⟩

/-- A table that has lost none of its money: its bets are positive, and
the bankroll has, to the dollar, what is not on the layout. -/
structure Balanced (total : Int) (table : PaperTable) : Prop where
  positive : table.bets.AllPositive
  bankroll : Binary64.IsInt table.bankroll (total - table.exposure)

/-- The exact amounts of such a table are within 2 ^ 53. -/
structure InRange (total : Int) (table : PaperTable) : Prop where
  exposure : table.exposure ≤ 9007199254740992
  bankroll : (total - table.exposure).natAbs ≤ 9007199254740992

instance (total : Int) (table : PaperTable) : Decidable (InRange total table) :=
  decidable_of_iff (_ ∧ _) ⟨fun h => ⟨h.1, h.2⟩, fun h => ⟨h.exposure, h.bankroll⟩⟩

/-- A report is true to the dollar: it has what went onto the layout
since this had a sum of `start`. -/
def Reports (start : Int) (state : PaperTable × ApplyReport) : Prop :=
  Binary64.IsInt state.2.net (state.1.exposure - start)

/-- One envelope keeps a table balanced and a report true. -/
theorem Balanced.step {total start : Int} {report : ApplyReport} (h : Balanced total table)
    (hreport : Reports start (table, report)) {e : Envelope} (hwell : e.WellFormed)
    (hstart : 0 ≤ start ∧ start ≤ 9007199254740992) (hbefore : InRange total table)
    (hafter : InRange total (PaperTable.step (table, report) e).1) :
    Balanced total (PaperTable.step (table, report) e).1 ∧
      Reports start (PaperTable.step (table, report) e) := by
  unfold Reports at hreport ⊢
  rcases moves_of_step h.positive report hwell with
    ⟨hsame, hnet⟩ | ⟨bet, target, htarget, hmoved, hnet⟩
  · -- Not an envelope about a bet.
    rw [hsame, hnet]
    exact ⟨h, hreport⟩
  · rw [hmoved] at hafter ⊢
    rw [hnet]
    have hsum := table.exposure_moveTo bet htarget
    have hpositive := allPositive_moveTo h.positive bet target
    -- All amounts are between nothing and the whole layout, so the cost is exact.
    obtain ⟨hcurrent, hcurrentLe⟩ := amount_mem h.positive bet
    obtain ⟨hlayout, hbankroll⟩ := hafter
    have hlayoutBefore := hbefore.exposure
    have hcovered := exposure_nonneg hpositive
    have hcost : Binary64.IsInt (table.cost bet target) (target - table.amount bet) :=
      Binary64.isInt_ofInt (by omega)
    refine ⟨⟨hpositive, ?_⟩, ?_⟩
    · -- The bankroll pays what the layout gets.
      have hpaid : total - (table.moveTo bet target).exposure =
          total - table.exposure - (target - table.amount bet) := by omega
      rw [hpaid] at hbankroll ⊢
      exact h.bankroll.sub hcost hbankroll
    · have hgone : (table.moveTo bet target).exposure - start =
          table.exposure - start + (target - table.amount bet) := by omega
      have hsofar : Binary64.IsInt report.net (table.exposure - start) := hreport
      show Binary64.IsInt (report.net.add (table.cost bet target)) _
      rw [hgone]
      exact hsofar.add hcost (by omega)

/-! ### All envelopes of a pass -/

/-- Envelopes are followed one by one. -/
theorem applyAll_snoc (table : PaperTable) (actions : List Envelope) (e : Envelope) :
    applyAll table (actions ++ [e]) = PaperTable.step (applyAll table actions) e := by
  simp [applyAll]

/-- Envelopes in a row keep a table balanced, if all tables on the way
are in range, and the report has the change of the layout. -/
theorem Balanced.applyAll {total : Int} (h : Balanced total table) {actions : List Envelope}
    (hwell : ∀ e ∈ actions, e.WellFormed)
    (hrange : ∀ done, done <+: actions → InRange total (applyAll table done).1) :
    Balanced total (applyAll table actions).1 ∧
      Reports table.exposure (applyAll table actions) := by
  have hstart : 0 ≤ table.exposure ∧ table.exposure ≤ 9007199254740992 :=
    ⟨exposure_nonneg h.positive, (hrange [] (List.nil_prefix)).exposure⟩
  induction actions using List.reverseRecOn with
  | nil =>
    refine ⟨h, ?_⟩
    show Binary64.IsInt 0 (table.exposure - table.exposure)
    rw [Int.sub_self, Binary64.zero_eq]
    exact Binary64.isInt_zero false
  | append_singleton actions e ih =>
    obtain ⟨hbalanced, hreports⟩ := ih (fun e' he' => hwell e' (by simp [he']))
      fun done hdone => hrange done (hdone.trans (List.prefix_append _ _))
    have hafter := hrange (actions ++ [e]) (List.prefix_refl _)
    rw [applyAll_snoc] at hafter ⊢
    exact hbalanced.step hreports (hwell e (by simp)) hstart
      (hrange actions (List.prefix_append _ _)) hafter

end PaperTable

/-! ### All passes of a play -/

/-- A pass leaves the table that its envelopes lead to. -/
theorem Turn.table_after (t : Turn PaperTable) :
    t.after.table = (PaperTable.applyAll t.before.table t.pass.actions).1 := by
  show (if t.pass.actions.isEmpty then t.before.table
    else (PaperTable.applyAll t.before.table t.pass.actions).1) = _
  split
  · rename_i hempty
    rw [List.isEmpty_iff.1 hempty]
    rfl
  · rfl

namespace Play

open Controller PaperTable

variable {strategy : Strategy} {table : PaperTable} {c : Controller PaperTable}

/-- All tables of a play are in range, those between the envelopes of a
pass as well. -/
def InRange (total : Int) (p : Play PaperTable) : Prop :=
  ∀ t ∈ p.turns, ∀ done, done <+: t.pass.actions →
    PaperTable.InRange total (applyAll t.before.table done).1

/-- A play that has lost no money: its table is balanced, now and after
each pass, and every report was true. -/
structure Conserved (total : Int) (p : Play PaperTable) : Prop where
  table : Balanced total p.controller.table
  turns : ∀ t ∈ p.turns, Balanced total t.after.table ∧
    Reports t.before.table.exposure (applyAll t.before.table t.pass.actions)

/-- One pass loses no money. That its envelopes are well-formed takes
the run so far. -/
theorem Conserved.handle {total : Int} {p : Play PaperTable} (h : p.Conserved total)
    (hlogged : Logged strategy p.turns p.controller) (event : Event)
    (hrange : (p.handle event).InRange total) : (p.handle event).Conserved total := by
  let t : Turn PaperTable := { before := p.controller, event }
  have hwell : ∀ e ∈ t.pass.actions, e.WellFormed := fun e he =>
    hlogged.reachable.keeps.wellFormed_handle he
  have hlast : t ∈ (p.handle event).turns := by
    rw [turns_handle]
    exact List.mem_append_right _ (List.mem_singleton_self t)
  obtain ⟨hafter, hreport⟩ := h.table.applyAll hwell (hrange t hlast)
  have hnew : Balanced total t.after.table := by rwa [t.table_after]
  refine ⟨hnew, fun t' ht' => ?_⟩
  rw [turns_handle] at ht'
  rcases List.mem_append.1 ht' with hold | hsame
  · exact h.turns t' hold
  · rw [List.mem_singleton.1 hsame]
    exact ⟨hnew, hreport⟩

/-- The money is conserved after any commands, as long as the amounts
were in range. -/
theorem conserved_after {total : Int} (hc : Ready strategy table c)
    (hstart : Balanced total table) (commands : List Command)
    (hrange : (after c commands).InRange total) : (after c commands).Conserved total := by
  suffices h : Logged strategy (after c commands).turns (after c commands).controller ∧
      ((after c commands).InRange total → (after c commands).Conserved total) from h.2 hrange
  refine after_induction (motive := fun p => Logged strategy p.turns p.controller ∧
    (p.InRange total → p.Conserved total)) ⟨hc.logged, fun _ => ?_⟩ ?_ ?_ ?_ commands
  · -- Getting ready has left the table as it was.
    refine ⟨?_, fun t ht => by cases ht⟩
    show Balanced total c.table
    rw [hc.table_eq]
    exact hstart
  · rintro p event ⟨hlogged, hp⟩
    constructor
    · rw [turns_handle]
      exact .handle _ _ event hlogged
    · intro hrange
      -- All but the last pass are those of the play before it.
      have hsofar : p.InRange total := fun t ht => hrange t (by simp [ht])
      exact (hp hsofar).handle hlogged event hrange
  · rintro p tracker ⟨hlogged, hp⟩
    exact ⟨.tracker _ _ tracker hlogged, fun hrange => ⟨(hp hrange).table, (hp hrange).turns⟩⟩
  · rintro p ⟨hlogged, hp⟩
    -- A table that is started over keeps its bets and its bankroll.
    rw [turns_reset]
    refine ⟨.tracker _ _ .fresh hlogged, fun hrange => ?_⟩
    unfold InRange at hrange
    rw [turns_reset] at hrange
    refine ⟨(hp hrange).table, ?_⟩
    rw [turns_reset]
    exact (hp hrange).turns

/-- Money is conserved. Whatever a strategy asks for, after every pass
the bankroll and the layout have together what they had at the start,
every bet is positive, and what the table reports is the change of the
layout. -/
theorem money_conserved (hc : Ready strategy table c) (hpositive : table.bets.AllPositive)
    {bankroll : Int} (hbankroll : Binary64.IsInt table.bankroll bankroll)
    (commands : List Command)
    (hrange : (after c commands).InRange (bankroll + table.exposure)) :
    ∀ t ∈ (after c commands).turns,
      t.after.table.bankroll.isFinite = true ∧
        t.after.table.bankroll.toRat + t.after.table.exposure =
          table.bankroll.toRat + table.exposure ∧
        t.after.table.bets.AllPositive ∧
        (applyAll t.before.table t.pass.actions).2.net.isFinite = true ∧
        (applyAll t.before.table t.pass.actions).2.net.toRat =
          t.after.table.exposure - t.before.table.exposure := by
  have hstart : Balanced (bankroll + table.exposure) table := by
    refine ⟨hpositive, ?_⟩
    rwa [Int.add_sub_cancel]
  intro t ht
  obtain ⟨hbalanced, hfinite, hnet⟩ := (conserved_after hc hstart commands hrange).turns t ht
  obtain ⟨hbankrollFinite, hvalue⟩ := hbalanced.bankroll
  refine ⟨hbankrollFinite, ?_, hbalanced.positive, hfinite, ?_⟩
  · rw [hvalue, hbankroll.2]
    push_cast
    ring
  · rw [hnet, t.table_after]
    push_cast
    ring

/-- A point and a seven-out with a line bet up. The template of the
first mode takes the line down, and that of the second puts the field
up: of 110 dollars, 90 are left in the bankroll. -/
theorem money_conserved_coldHand :
    ∃ c : Controller PaperTable, Ready coldHand withLine c ∧ withLine.bets.AllPositive ∧
      Binary64.IsInt withLine.bankroll 100 ∧
      (after c [.roll 6 none, .roll 7 none]).InRange 110 ∧
      (after c [.roll 6 none, .roll 7 none]).controller.table.bankroll = 90 ∧
      (after c [.roll 6 none, .roll 7 none]).controller.table.bets = .ofList [("field", 20)] ∧
      ∀ t ∈ (after c [.roll 6 none, .roll 7 none]).turns,
        t.after.table.bankroll.toRat + t.after.table.exposure =
          withLine.bankroll.toRat + withLine.exposure := by
  let commands : List Command := [.roll 6 none, .roll 7 none]
  let seen := fun c : Controller PaperTable =>
    ((after c commands).controller.table.bankroll, (after c commands).controller.table.bets,
      (after c commands).turns.all fun t => t.pass.actions.inits.all fun done =>
        decide (PaperTable.InRange 110 (applyAll t.before.table done).1))
  have hseen : (Controller.start coldHand withLine).toOption.map seen =
      some (90, .ofList [("field", 20)], true) := by
    decide +kernel
  obtain ⟨c, hstart, hc⟩ := exists_ok_of_toOption hseen
  simp only [seen, Prod.mk.injEq] at hc
  obtain ⟨hbankroll, hbets, hchecked⟩ := hc
  have hready : Ready coldHand withLine c := .of_start hstart
  have hpositive : withLine.bets.AllPositive := by
    intro bet amount hget
    have hentry := (KeyMap.mem_entries_iff _ _ _).2 hget
    simp [withLine, KeyMap.ofList, Entries.ofList, Entries.insert] at hentry
    omega
  have hwhole : Binary64.IsInt withLine.bankroll 100 := by
    constructor <;> decide +kernel
  -- The check has gone through every part of every pass.
  have hrange : (after c commands).InRange 110 := by
    intro t ht done hdone
    have hturn := List.all_eq_true.1 hchecked t ht
    exact of_decide_eq_true (List.all_eq_true.1 hturn done ((List.mem_inits done _).2 hdone))
  exact ⟨c, hready, hpositive, hwhole, hrange, hbankroll, hbets, fun t ht =>
    (money_conserved hready hpositive hwhole commands hrange t ht).2.1⟩

end Play

end CrapsStrategy
