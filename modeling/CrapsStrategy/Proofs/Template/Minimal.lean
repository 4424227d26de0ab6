import CrapsStrategy.Proofs.Template.Changes
import Mathlib.Data.List.Sort

/-!
# `CrapsStrategy.Proofs.Template.Minimal`: no change is idle

`Layout.changes` lists what turns one layout into another. `Turns` says
what such a list has to be, without a word about how it is found: the
clears come first and then the sets, each group in the order of the
keys; a clear takes down a bet that counts where it comes, and a set
puts up one that does not; in the end the bets are those of the other
layout; and no bet is named that both layouts have at the same amount.

`turns_changes` is that the changes are such a list, `eq_changes` that
there is no other one. Whether a change takes effect depends on the
layout that the changes before it have left, so `AllEffective` goes
along the list. For clears alone and for sets alone this comes to a
condition on the layout that they start from, as no key is named twice.
-/

set_option autoImplicit false

namespace CrapsStrategy

namespace BetChange

/-- The bet that a change is about. -/
def bet : BetChange → String
  | clear bet | set bet _ => bet

/-- The bet that a change takes down. -/
def cleared? : BetChange → Option String
  | clear bet => some bet
  | set _ _ => none

/-- The bet that a change puts up, and its amount. -/
def placed? : BetChange → Option (String × Int)
  | clear _ => none
  | set bet amount => some (bet, amount)

/-- A change that takes effect: a bet that counts comes down, or one that
does not count goes up to an amount that does. -/
def Effective (layout : Layout) : BetChange → Prop
  | clear bet => layout.positive? bet ≠ none
  | set bet amount => layout.positive? bet = none ∧ 0 < amount

end BetChange

namespace Layout

/-- The bets that some changes take down, in order. -/
def cleared (changes : List BetChange) : List String :=
  changes.filterMap BetChange.cleared?

/-- The bets that some changes put up, in order. -/
def placed (changes : List BetChange) : List (String × Int) :=
  changes.filterMap BetChange.placed?

/-- The clears of some bets. -/
def clears (bets : List String) : List BetChange :=
  bets.map .clear

/-- The sets of some bets at their amounts. -/
def sets (entries : List (String × Int)) : List BetChange :=
  entries.map fun (bet, amount) => .set bet amount

/-- Changes that all take effect, each on the layout that those before it
have left. -/
def AllEffective (layout : Layout) : List BetChange → Prop
  | [] => True
  | change :: later => change.Effective layout ∧ AllEffective (change.apply layout) later

/-- Changes that turn one layout into another, and do nothing else. -/
structure Turns (current desired : Layout) (changes : List BetChange) : Prop where
  groups : changes = clears (cleared changes) ++ sets (placed changes)
  clears_ascend : (cleared changes).Pairwise (· < ·)
  sets_ascend : ((placed changes).map Prod.fst).Pairwise (· < ·)
  effective : AllEffective current changes
  reaches : (current.perform changes).live = desired.live
  named_iff : ∀ bet, bet ∈ changes.map BetChange.bet ↔
    current.positive? bet ≠ desired.positive? bet
  once : ∀ bet, (cleared changes).count bet ≤ 1 ∧ ((placed changes).map Prod.fst).count bet ≤ 1

/-! ### Clears and sets -/

variable {layout current desired other : Layout} {bets : List String}
  {entries : List (String × Int)} {changes : List BetChange}

/-- Of clears followed by sets the clears can be read off. -/
@[simp]
theorem cleared_groups : cleared (clears bets ++ sets entries) = bets := by
  simp [cleared, clears, sets, List.filterMap_append, List.filterMap_map, Function.comp_def,
    BetChange.cleared?]

/-- Of clears followed by sets the sets can be read off. -/
@[simp]
theorem placed_groups : placed (clears bets ++ sets entries) = entries := by
  simp [placed, clears, sets, List.filterMap_append, List.filterMap_map, Function.comp_def,
    BetChange.placed?]

/-- The bets that such changes name, in order. -/
theorem bet_groups :
    (clears bets ++ sets entries).map BetChange.bet = bets ++ entries.map Prod.fst := by
  simp [clears, sets, Function.comp_def, BetChange.bet]

/-- Changes take effect one list after the other, the second on what the
first has left. -/
theorem allEffective_append {first second : List BetChange} :
    AllEffective layout (first ++ second) ↔
      AllEffective layout first ∧ AllEffective (layout.perform first) second := by
  induction first generalizing layout with
  | nil => exact ⟨fun h => ⟨trivial, h⟩, fun h => h.2⟩
  | cons change first ih =>
    show _ ∧ AllEffective _ (first ++ second) ↔ (_ ∧ AllEffective _ first) ∧ _
    rw [ih, and_assoc]
    rfl

/-- What a bet counts for after another one was changed. -/
theorem positive?_apply_of_ne (change : BetChange) {bet : String} (h : change.bet ≠ bet) :
    (change.apply layout).positive? bet = layout.positive? bet := by
  cases change with
  | clear first =>
    have hne : bet ≠ first := Ne.symm h
    show (KeyMap.get? (KeyMap.erase layout first) bet).filter _ = _
    rw [KeyMap.get?_erase, if_neg hne]
    rfl
  | set first amount =>
    have hne : bet ≠ first := Ne.symm h
    show (KeyMap.get? (KeyMap.insert layout first amount) bet).filter _ = _
    rw [KeyMap.get?_insert, if_neg hne]
    rfl

/-- Clears of different bets take effect when all of them count at the
start. -/
theorem allEffective_clears (h : bets.Nodup) :
    AllEffective layout (clears bets) ↔ ∀ bet ∈ bets, layout.positive? bet ≠ none := by
  induction bets generalizing layout with
  | nil => exact ⟨fun _ bet hbet => absurd hbet List.not_mem_nil, fun _ => trivial⟩
  | cons first rest ih =>
    obtain ⟨hfirst, hrest⟩ := List.nodup_cons.1 h
    show _ ∧ AllEffective _ (clears rest) ↔ _
    rw [ih hrest, List.forall_mem_cons]
    -- The first clear is of none of the other bets.
    refine and_congr_right fun _ => forall₂_congr fun bet hbet => ?_
    rw [positive?_apply_of_ne (.clear first)]
    intro hsame
    exact hfirst ((show first = bet from hsame) ▸ hbet)

/-- Sets of different bets take effect when none of them counts at the
start. -/
theorem allEffective_sets (h : (entries.map Prod.fst).Nodup) :
    AllEffective layout (sets entries) ↔
      ∀ entry ∈ entries, layout.positive? entry.1 = none ∧ 0 < entry.2 := by
  induction entries generalizing layout with
  | nil => exact ⟨fun _ entry hentry => absurd hentry List.not_mem_nil, fun _ => trivial⟩
  | cons first rest ih =>
    obtain ⟨hfirst, hrest⟩ := List.nodup_cons.1 h
    show _ ∧ AllEffective _ (sets rest) ↔ _
    rw [ih hrest, List.forall_mem_cons]
    refine and_congr_right fun _ => forall₂_congr fun entry hentry => ?_
    rw [positive?_apply_of_ne (.set first.1 first.2)]
    intro hsame
    exact hfirst ((show first.1 = entry.1 from hsame) ▸ List.mem_map_of_mem hentry)

/-- What a bet counts for after clears. -/
theorem positive?_perform_clears (layout : Layout) (bets : List String) (bet : String) :
    (layout.perform (clears bets)).positive? bet =
      if bet ∈ bets then none else layout.positive? bet := by
  induction bets generalizing layout with
  | nil => rfl
  | cons first rest ih =>
    show (perform (KeyMap.erase layout first) (clears rest)).positive? bet = _
    rw [ih]
    by_cases hfirst : bet = first
    · subst hfirst
      have hgone : positive? (KeyMap.erase layout bet) bet = none := by
        rw [positive?, KeyMap.get?_erase, if_pos rfl]
        rfl
      rw [hgone, ite_self, if_pos List.mem_cons_self]
    · have hkept : positive? (KeyMap.erase layout first) bet = layout.positive? bet :=
        positive?_apply_of_ne (.clear first) (Ne.symm hfirst)
      rw [hkept]
      simp [hfirst]

/-- What a bet counts for after sets to amounts that count. -/
theorem positive?_perform_sets (layout : Layout) (h : Entries.Ascending entries)
    (hpositive : ∀ entry ∈ entries, 0 < entry.2) (bet : String) :
    (layout.perform (sets entries)).positive? bet =
      (entries.lookup bet).or (layout.positive? bet) := by
  rw [positive?, sets, get?_perform_sets layout h]
  cases hlookup : entries.lookup bet with
  | none => rfl
  | some amount =>
    have hamount : 0 < amount := hpositive (bet, amount) ((h.mem_iff_lookup bet amount).2 hlookup)
    simp [hamount]

/-! ### The changes are such a list -/

/-- The bets of a layout that another does not have, as entries. -/
theorem mem_notIn {bet : String} {amount : Int} :
    (bet, amount) ∈ notIn layout other ↔
      layout.positive? bet = some amount ∧ other.positive? bet ≠ some amount := by
  rw [(ascending_notIn layout other).mem_iff_lookup, lookup_notIn, Option.filter_eq_some_iff,
    decide_eq_true_iff]

/-- The keys of the bets of a layout that another does not have. -/
theorem mem_keys_notIn {bet : String} :
    bet ∈ (notIn layout other).map Prod.fst ↔
      layout.positive? bet ≠ none ∧ layout.positive? bet ≠ other.positive? bet := by
  constructor
  · intro h
    obtain ⟨⟨_, amount⟩, hentry, rfl⟩ := List.mem_map.1 h
    obtain ⟨hlayout, hother⟩ := mem_notIn.1 hentry
    rw [hlayout]
    exact ⟨nofun, Ne.symm hother⟩
  · rintro ⟨hsome, hdiffer⟩
    obtain ⟨amount, hamount⟩ := Option.ne_none_iff_exists'.1 hsome
    rw [hamount] at hdiffer
    exact List.mem_map.2 ⟨(bet, amount), mem_notIn.2 ⟨hamount, hdiffer.symm⟩, rfl⟩

/-- The changes are a group of clears and then a group of sets. -/
theorem changes_eq_groups (current desired : Layout) :
    Layout.changes current desired =
      clears ((notIn current desired).map Prod.fst) ++ sets (notIn desired current) := by
  rw [Layout.changes, clears, List.map_map]
  rfl

/-- All of the changes take effect. -/
theorem allEffective_changes (current desired : Layout) :
    AllEffective current (Layout.changes current desired) := by
  have hkeys : ∀ layout other : Layout, ((notIn layout other).map Prod.fst).Nodup :=
    fun layout other => KeyMap.nodup_keys ⟨_, ascending_notIn layout other⟩
  rw [changes_eq_groups, allEffective_append, allEffective_clears (hkeys _ _),
    allEffective_sets (hkeys _ _)]
  constructor
  · exact fun bet hbet => (mem_keys_notIn.1 hbet).1
  · rintro ⟨bet, amount⟩ hentry
    obtain ⟨hdesired, hcurrent⟩ := mem_notIn.1 hentry
    refine ⟨?_, ?_⟩
    · -- A bet that is set counts for nothing, or it was cleared before.
      show positive? _ bet = none
      rw [positive?_perform_clears]
      split
      · rfl
      · rename_i hkept
        by_contra hsome
        refine hkept (mem_keys_notIn.2 ⟨hsome, ?_⟩)
        rwa [hdesired]
    · exact of_decide_eq_true (Option.filter_eq_some_iff.1 hdesired).2

/-- The changes turn the one layout into the other, and there are none
exactly between layouts with the same bets. -/
theorem turns_changes (current desired : Layout) :
    Turns current desired (Layout.changes current desired) ∧
      (Layout.changes current desired = [] ↔ current.live = desired.live) := by
  have hkeys : ∀ layout other : Layout,
      ((notIn layout other).map Prod.fst).Pairwise (· < ·) :=
    fun layout other => List.pairwise_map.2 (ascending_notIn layout other)
  have hcleared : cleared (Layout.changes current desired) =
      (notIn current desired).map Prod.fst := by
    rw [changes_eq_groups, cleared_groups]
  have hplaced : placed (Layout.changes current desired) = notIn desired current := by
    rw [changes_eq_groups, placed_groups]
  refine ⟨{ groups := ?groups, clears_ascend := ?clears, sets_ascend := ?sets,
            effective := allEffective_changes current desired,
            reaches := live_perform_changes current desired, named_iff := ?named,
            once := ?once }, ?empty⟩
  case groups => rw [hcleared, hplaced, changes_eq_groups]
  case clears =>
    rw [hcleared]
    exact hkeys current desired
  case sets =>
    rw [hplaced]
    exact hkeys desired current
  case named =>
    intro bet
    rw [changes_eq_groups, bet_groups, List.mem_append, mem_keys_notIn, mem_keys_notIn]
    constructor
    · rintro (⟨_, hdiffer⟩ | ⟨_, hdiffer⟩)
      · exact hdiffer
      · exact hdiffer.symm
    · intro hdiffer
      -- Of two amounts that differ one is there.
      by_cases hcurrent : current.positive? bet = none
      · exact .inr ⟨fun hdesired => hdiffer (hcurrent.trans hdesired.symm), hdiffer.symm⟩
      · exact .inl ⟨hcurrent, hdiffer⟩
  case once =>
    intro bet
    rw [hcleared, hplaced]
    exact ⟨List.nodup_iff_count_le_one.1 (hkeys current desired).nodup bet,
      List.nodup_iff_count_le_one.1 (hkeys desired current).nodup bet⟩
  case empty =>
    constructor
    · intro hnil
      have hreaches := live_perform_changes current desired
      rwa [hnil] at hreaches
    · intro hlive
      refine changes_eq_nil fun bet => ?_
      rw [← get?_live, ← get?_live, hlive]

/-! ### There is no other one -/

/-- The bets that are taken down. -/
theorem Turns.mem_cleared (h : Turns current desired changes) (bet : String) :
    bet ∈ cleared changes ↔ bet ∈ (notIn current desired).map Prod.fst := by
  have heffective := h.effective
  rw [h.groups, allEffective_append, allEffective_clears h.clears_ascend.nodup,
    allEffective_sets h.sets_ascend.nodup] at heffective
  obtain ⟨hcleared, hplaced⟩ := heffective
  have hnamed := h.named_iff bet
  rw [h.groups, bet_groups, List.mem_append] at hnamed
  rw [mem_keys_notIn]
  constructor
  · exact fun hbet => ⟨hcleared bet hbet, hnamed.1 (.inl hbet)⟩
  · rintro ⟨hsome, hdiffer⟩
    rcases hnamed.2 hdiffer with hbet | hbet
    · exact hbet
    · -- A set takes effect where the bet counts for nothing any more.
      obtain ⟨entry, hentry, rfl⟩ := List.mem_map.1 hbet
      have hnone := (hplaced entry hentry).1
      rw [positive?_perform_clears] at hnone
      by_contra hkept
      rw [if_neg hkept] at hnone
      exact hsome hnone

/-- The bets that are put up. -/
theorem Turns.mem_placed (h : Turns current desired changes) (entry : String × Int) :
    entry ∈ placed changes ↔ entry ∈ notIn desired current := by
  have hascending : Entries.Ascending (placed changes) := List.pairwise_map.1 h.sets_ascend
  have heffective := h.effective
  rw [h.groups, allEffective_append, allEffective_sets h.sets_ascend.nodup] at heffective
  -- What is put up is what counts in the end.
  have hdesired : ∀ bet, desired.positive? bet = ((placed changes).lookup bet).or
      (if bet ∈ cleared changes then none else current.positive? bet) := by
    intro bet
    rw [← get?_live, ← h.reaches, get?_live]
    conv_lhs => rw [h.groups]
    rw [perform_append, positive?_perform_sets _ hascending fun e he => (heffective.2 e he).2,
      positive?_perform_clears]
  obtain ⟨bet, amount⟩ := entry
  have hnamed := h.named_iff bet
  rw [h.groups, bet_groups, List.mem_append] at hnamed
  rw [hascending.mem_iff_lookup, mem_notIn]
  constructor
  · intro hlookup
    have hamount : desired.positive? bet = some amount := by
      rw [hdesired, hlookup]
      rfl
    refine ⟨hamount, fun hsame => ?_⟩
    have hbet : bet ∈ (placed changes).map Prod.fst :=
      List.mem_map.2 ⟨(bet, amount), (hascending.mem_iff_lookup bet amount).2 hlookup, rfl⟩
    exact hnamed.1 (.inr hbet) (hsame.trans hamount.symm)
  · rintro ⟨hamount, hdiffer⟩
    rw [hdesired] at hamount
    cases hlookup : (placed changes).lookup bet with
    | some found =>
      rw [hlookup] at hamount
      exact hamount
    | none =>
      -- Without a set the bet would have to count for that amount before.
      rw [hlookup] at hamount
      split at hamount
      · cases hamount
      · exact absurd hamount hdiffer

/-- Changes that turn one layout into another and do nothing else are
the changes between them. -/
theorem Turns.eq_changes (h : Turns current desired changes) :
    changes = Layout.changes current desired := by
  have hcleared : cleared changes = (notIn current desired).map Prod.fst :=
    h.clears_ascend.eq_of_mem_iff (List.pairwise_map.2 (ascending_notIn current desired))
      h.mem_cleared
  have hplaced : placed changes = notIn desired current :=
    Entries.Ascending.eq_of_mem_iff (List.pairwise_map.1 h.sets_ascend)
      (ascending_notIn desired current) h.mem_placed
  rw [h.groups, hcleared, hplaced, changes_eq_groups]

end Layout

end CrapsStrategy
