import CrapsStrategy.Proofs.KeyMap
import CrapsStrategy.Template.Plan

/-!
# `CrapsStrategy.Proofs.Template.Changes`: what changes lead to

`Layout.perform` carries changes out: a clear takes a bet down, a set
puts it at its amount. The changes from one layout to another lead to
the bets of the other (`positive?_perform_changes`), and there are
none between layouts with the same bets (`changes_eq_nil`).

Both are statements about `Layout.positive?`, one bet at a time, as
amounts that are not positive count as no bet. Such entries may be
left over on the layout; `live` is the layout without them.
-/

set_option autoImplicit false

namespace CrapsStrategy

/-- A layout after a change. -/
def BetChange.apply (layout : Layout) : BetChange → Layout
  | clear bet => KeyMap.erase layout bet
  | set bet amount => KeyMap.insert layout bet amount

namespace Layout

/-- A layout after some changes, in order. -/
def perform (layout : Layout) (changes : List BetChange) : Layout :=
  changes.foldl BetChange.apply layout

/-- The bets of a layout that count. -/
def live (layout : Layout) : Layout :=
  KeyMap.filter layout fun _ amount => decide (0 < amount)

/-- The live part of a layout has the bets that count. -/
@[simp]
theorem get?_live (layout : Layout) (bet : String) :
    KeyMap.get? layout.live bet = layout.positive? bet :=
  KeyMap.get?_filter layout _ bet

/-! ### Bets that another layout does not have -/

/-- Bets are listed in the order of the layout, which is that of their
keys. -/
theorem ascending_notIn (layout other : Layout) : Entries.Ascending (notIn layout other) :=
  layout.ascending.filter _

/-- The amount of a bet that another layout does not have at this
amount. -/
theorem lookup_notIn (layout other : Layout) (bet : String) :
    (notIn layout other).lookup bet =
      (layout.positive? bet).filter fun amount => decide (other.positive? bet ≠ some amount) := by
  have hget := KeyMap.get?_filter layout
    (fun bet amount => decide (0 < amount) && decide (other.positive? bet ≠ some amount)) bet
  show _ = ((KeyMap.get? layout bet).filter _).filter _
  rw [Option.filter_filter]
  exact hget

/-- A bet that both layouts have at the same amount is not listed, and
any other one is. -/
theorem lookup_notIn_of_eq {layout other : Layout} {bet : String}
    (h : layout.positive? bet = other.positive? bet) : (notIn layout other).lookup bet = none := by
  rw [lookup_notIn, h]
  cases other.positive? bet <;> simp

/-- A bet at another amount is listed with its own, and not listed when
it does not count. -/
theorem lookup_notIn_of_ne {layout other : Layout} {bet : String}
    (h : layout.positive? bet ≠ other.positive? bet) :
    (notIn layout other).lookup bet = layout.positive? bet := by
  rw [lookup_notIn]
  cases hamount : layout.positive? bet with
  | none => rfl
  | some amount =>
    rw [hamount] at h
    simp [Ne.symm h]

/-- A bet is only set at an amount that counts. -/
theorem pos_of_set_mem_changes {current desired : Layout} {bet : String} {amount : Int}
    (h : .set bet amount ∈ changes current desired) : 0 < amount := by
  rcases List.mem_append.1 h with hclear | hset
  · obtain ⟨_, _, heq⟩ := List.mem_map.1 hclear
    cases heq
  · obtain ⟨entry, hentry, heq⟩ := List.mem_map.1 hset
    cases heq
    have hlisted := (List.mem_filter.1 hentry).2
    rw [Bool.and_eq_true] at hlisted
    exact of_decide_eq_true hlisted.1

/-- A bet is set at the amount that is wanted. -/
theorem get?_of_set_mem_changes {current desired : Layout} {bet : String} {amount : Int}
    (h : .set bet amount ∈ changes current desired) : KeyMap.get? desired bet = some amount := by
  rcases List.mem_append.1 h with hclear | hset
  · obtain ⟨_, _, heq⟩ := List.mem_map.1 hclear
    cases heq
  · obtain ⟨entry, hentry, heq⟩ := List.mem_map.1 hset
    cases heq
    exact (KeyMap.mem_entries_iff desired _ _).1 (List.mem_filter.1 hentry).1

/-! ### Changes in a row -/

/-- Changes are carried out one list after the other. -/
theorem perform_append (layout : Layout) (first second : List BetChange) :
    layout.perform (first ++ second) = (layout.perform first).perform second :=
  List.foldl_append

/-- Clears take down the bets that they name. -/
theorem get?_perform_clears (layout : Layout) (entries : List (String × Int)) (bet : String) :
    KeyMap.get? (layout.perform (entries.map fun (bet, _) => .clear bet)) bet =
      if (entries.lookup bet).isSome then none else KeyMap.get? layout bet := by
  induction entries generalizing layout with
  | nil => rfl
  | cons head rest ih =>
    obtain ⟨first, amount⟩ := head
    show KeyMap.get? (perform (KeyMap.erase layout first) _) bet = _
    rw [ih, Entries.lookup_cons, KeyMap.get?_erase]
    by_cases hbet : bet = first
    · rw [if_pos hbet, if_pos hbet, ite_self]
      rfl
    · rw [if_neg hbet, if_neg hbet]

/-- Sets put up the bets that they name. Each is named once, so none
is put at another amount later. -/
theorem get?_perform_sets (layout : Layout) {entries : List (String × Int)}
    (h : Entries.Ascending entries) (bet : String) :
    KeyMap.get? (layout.perform (entries.map fun (bet, amount) => .set bet amount)) bet =
      (entries.lookup bet).or (KeyMap.get? layout bet) := by
  induction entries generalizing layout with
  | nil => rfl
  | cons head rest ih =>
    obtain ⟨first, amount⟩ := head
    show KeyMap.get? (perform (KeyMap.insert layout first amount) _) bet = _
    rw [ih _ (List.pairwise_cons.1 h).2, Entries.lookup_cons, KeyMap.get?_insert]
    by_cases hbet : bet = first
    · rw [if_pos hbet, if_pos hbet, hbet, h.lookup_tail]
      rfl
    · rw [if_neg hbet, if_neg hbet]

/-- The changes to a layout lead to its bets. -/
theorem positive?_perform_changes (current desired : Layout) (bet : String) :
    (current.perform (changes current desired)).positive? bet = desired.positive? bet := by
  rw [changes, perform_append, positive?,
    get?_perform_sets _ (ascending_notIn desired current), get?_perform_clears]
  by_cases hsame : desired.positive? bet = current.positive? bet
  · -- Such a bet is left alone.
    rw [lookup_notIn_of_eq hsame, lookup_notIn_of_eq hsame.symm, hsame]
    rfl
  · rw [lookup_notIn_of_ne hsame, lookup_notIn_of_ne (Ne.symm hsame)]
    cases hdesired : desired.positive? bet with
    | some amount =>
      -- The set wins over all that was there.
      have hpositive := (Option.filter_eq_some_iff.1 hdesired).2
      simp only [Option.some_or, Option.filter_some, hpositive, if_true]
    | none =>
      -- The bet is only cleared, and it was there.
      rw [hdesired] at hsame
      have hsome : (current.positive? bet).isSome = true :=
        Option.ne_none_iff_isSome.1 (Ne.symm hsame)
      rw [hsome]
      rfl

/-- Performing the changes to a layout makes it the live part. -/
theorem live_perform_changes (current desired : Layout) :
    (current.perform (changes current desired)).live = desired.live := by
  apply KeyMap.ext_get?
  intro bet
  rw [get?_live, get?_live, positive?_perform_changes]

/-- Between layouts with the same bets there is nothing to change. -/
theorem changes_eq_nil {current desired : Layout}
    (h : ∀ bet, current.positive? bet = desired.positive? bet) : changes current desired = [] := by
  have hnone : ∀ layout other : Layout, (∀ bet, layout.positive? bet = other.positive? bet) →
      notIn layout other = [] := by
    intro layout other hsame
    rw [List.eq_nil_iff_forall_not_mem]
    rintro ⟨bet, amount⟩ hmem
    have hlookup := ((ascending_notIn layout other).mem_iff_lookup bet amount).1 hmem
    rw [lookup_notIn_of_eq (hsame bet)] at hlookup
    cases hlookup
  rw [changes, hnone _ _ h, hnone _ _ fun bet => (h bet).symm]
  rfl

end Layout

end CrapsStrategy
