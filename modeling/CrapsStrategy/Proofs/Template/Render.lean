import CrapsStrategy.Proofs.Table.Odds
import CrapsStrategy.Proofs.Template.Changes

/-!
# `CrapsStrategy.Proofs.Template.Render`: what rendering reads and gives

Rendering reads the merged namespace of a snapshot and its point, and
neither has the bets on the layout in it: `render_bets` says that a
template wants the same bets whatever is on the table.

Every amount that rendering puts up was made legal by the table, and
is positive. `every_render` is that invariant for any property of such
amounts (`TableRules.Ensures`); it goes through line bets, place bets
and odds alike, as all of them are inserted under the same test. So
bets are positive (`allPositive_render`), and none is beyond the
64-bit integers (`Ensures.le_maxInt`).
-/

set_option autoImplicit false

namespace CrapsStrategy

/-! ### The layout is not read -/

/-- No field of the flat namespace is about the bets on the layout. -/
theorem Snapshot.merged_bets (s : Snapshot) (bets : Layout) :
    { s with bets }.merged = s.merged := rfl

/-- What a template wants does not depend on what is on the table. -/
theorem Template.render_bets (template : Template) (s : Snapshot) (bets : Layout)
    (table : TableRules) : template.render { s with bets } table = template.render s table := by
  unfold render
  rw [s.merged_bets bets]

/-! ### Only legal amounts -/

namespace Layout

/-- All amounts of a layout have a property. -/
def Every (p : Int → Prop) (layout : Layout) : Prop :=
  ∀ bet amount, KeyMap.get? layout bet = some amount → p amount

section

variable {p : Int → Prop} {layout : Layout}

/-- An empty layout has no amounts to ask about. -/
theorem every_empty : Every p KeyMap.empty := by
  intro bet amount hget
  cases hget

/-- A bet that is put up has the property itself, and all others keep
it. -/
theorem Every.insert (h : layout.Every p) (bet : String) {amount : Int} (hamount : p amount) :
    Every p (KeyMap.insert layout bet amount) := by
  intro other value hget
  rw [KeyMap.get?_insert] at hget
  split at hget
  · cases hget
    exact hamount
  · exact h other value hget

/-- Taking a bet down asks nothing of the others. -/
theorem Every.erase (h : layout.Every p) (bet : String) : Every p (KeyMap.erase layout bet) := by
  intro other value hget
  rw [KeyMap.get?_erase] at hget
  split at hget
  · cases hget
  · exact h other value hget

end

/-- A layout without entries that do not count. -/
def AllPositive (layout : Layout) : Prop :=
  ∀ bet amount, KeyMap.get? layout bet = some amount → 0 < amount

/-- On such a layout every entry counts. -/
theorem AllPositive.positive?_eq {layout : Layout} (h : layout.AllPositive) (bet : String) :
    layout.positive? bet = KeyMap.get? layout bet := by
  unfold positive?
  cases hget : KeyMap.get? layout bet with
  | none => rfl
  | some amount => rw [Option.filter_some, decide_eq_true (h bet amount hget), if_pos rfl]

/-- A layout on which every entry counts is all live. -/
theorem AllPositive.live_eq {layout : Layout} (h : layout.AllPositive) : layout.live = layout := by
  apply KeyMap.ext_get?
  intro bet
  rw [get?_live, h.positive?_eq]

end Layout

/-- A property of all positive amounts that a table makes legal. -/
structure TableRules.Ensures (table : TableRules) (p : Int → Prop) : Prop where
  bet : ∀ key raw, 0 < Legal.bet key raw table → p (Legal.bet key raw table)
  odds : ∀ point base request, 0 < Render.oddsAmount table point base request →
    p (Render.oddsAmount table point base request)

namespace Render

open Layout (Every)

variable {table : TableRules} {scope : Scope} {p : Int → Prop}

/-- One entry puts up a legal amount or nothing. -/
theorem every_place (hlegal : table.Ensures p) {bets : Layout} (h : bets.Every p) (key : String)
    (raw : Option Binary64) : Every p (place table key bets raw) := by
  unfold place
  split
  · dsimp only
    split
    · rename_i hamount
      exact h.insert key (hlegal.bet _ _ hamount)
    · exact h
  · exact h

/-- The entries of a group put up legal amounts or nothing. -/
theorem every_placeEntries (hlegal : table.Ensures p) {bets : Layout} (h : bets.Every p)
    (entries : List (String × TemplateEntry)) :
    Every p (entries.foldl (placeEntry table scope) bets) :=
  List.foldlRecOn (motive := Every p) entries _ h fun _ hbets _ _ =>
    every_place hlegal hbets _ _

/-- One entry of a template, of any form. -/
theorem every_step (hlegal : table.Ensures p) {draft : Draft} (h : draft.bets.Every p)
    (entry : String × TemplateEntry) : (step table scope draft entry).bets.Every p := by
  unfold step
  dsimp only
  split
  · split
    · exact every_placeEntries hlegal h _
    · split <;> exact h
  · exact every_place hlegal h _ _
  · exact every_place hlegal h _ _

/-- Odds are put up at a legal amount or not at all. -/
theorem every_addOdds (hlegal : table.Ensures p) {point : Nat} {r : Rendered}
    (h : r.bets.Every p) (request : OddsRequest) :
    (addOdds table point r request).bets.Every p := by
  unfold addOdds
  dsimp only
  split
  · rename_i hpositive
    exact h.insert _ (hlegal.odds _ _ _ hpositive.2)
  · exact h

end Render

namespace Template

variable {table : TableRules} {p : Int → Prop}

/-- Rendering gives legal amounts only. -/
theorem every_render (hlegal : table.Ensures p) (template : Template) (s : Snapshot) :
    (template.render s table).bets.Every p := by
  have hdraft : (template.entries.foldl (Render.step table (Scope.ofVariables s.merged))
      { bets := .empty, requests := [] }).bets.Every p :=
    List.foldlRecOn (motive := fun draft : Render.Draft => draft.bets.Every p)
      template.entries _ Layout.every_empty
      fun _ hbets entry _ => Render.every_step hlegal hbets entry
  unfold render
  dsimp only
  split
  · exact List.foldlRecOn (motive := fun r : Rendered => r.bets.Every p) _ _ hdraft
      fun _ hbets request _ => Render.every_addOdds hlegal hbets request
  · exact hdraft

/-- Rendering gives positive bets only. -/
theorem allPositive_render (template : Template) (s : Snapshot) (table : TableRules) :
    (template.render s table).bets.AllPositive :=
  template.every_render (p := fun amount => 0 < amount) ⟨fun _ _ h => h, fun _ _ _ h => h⟩ s

end Template

/-! ### The range of amounts -/

/-- At a table whose level is a 64-bit integer no legal amount is beyond
these integers. -/
theorem TableRules.Ensures.le_maxInt {table : TableRules}
    (hlevel : table.level ≤ Binary64.maxInt) :
    table.Ensures fun amount => amount ≤ Binary64.maxInt := by
  constructor
  case bet =>
    intro key raw _
    exact Legal.bet_le_maxInt hlevel key raw
  case odds =>
    intro point base request _
    unfold Render.oddsAmount
    split
    · exact Legal.passOdds_le_maxInt point base request.raw table
    · exact Legal.layOdds_le_maxInt point base request.raw table

end CrapsStrategy
